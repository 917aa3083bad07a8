import Rulebook.Store
import Rulebook.Proofs.Compiler.Growth
import Rulebook.Proofs.Compiler.Refusals
import Rulebook.Proofs.Expression.Clauses

/-!
# Stores and their histories

A store answers requests one after the other. What it keeps under a name can be read off the answers
alone: the tree of the latest answer that put one there, if nothing behind that answer took it away.
The versions of the trees count the documents that were compiled, a refused request changes nothing,
and a batch is its entries loaded one by one.
-/

namespace Rulebook

namespace Store

/-- What a store is asked for. -/
inductive Request where
  /-- To register a custom operator. -/
  | register (name : String) (operation : Operation)
  /-- To compile a document and to keep the tree under a name. -/
  | load (name markup : String)
  /-- To compile a document and to put the tree in place of the one under a name. -/
  | update (name markup : String)
  /-- To take the tree under a name away. -/
  | delete (name : String)
  /-- To compile documents and to keep the trees under their names. -/
  | loadAll (sources : List (String × String))
  /-- To take all trees away. -/
  | clear
  /-- To evaluate the tree under a name. -/
  | evaluate (name : String) (evaluator : Evaluator) (records : Records)

/-- What a store answers. -/
inductive Answer where
  /-- It is done. -/
  | done
  /-- The tree was made. -/
  | made (tree : RuleTree)
  /-- The documents of these names were compiled. -/
  | loaded (names : List String)
  /-- The evaluation ended so, with these records. -/
  | evaluated (result : Except Refusal Report) (records : Records)
  /-- The request is refused. -/
  | refused (refusal : Refusal)

/-- The refusal in an answer. -/
def Answer.refusal? : Answer → Option Refusal
  | .refused refusal => some refusal
  | .evaluated (.error refusal) _ => some refusal
  | _ => none

/-- The answer to a request and the store behind it. -/
def settle (store : Store) (result : Except Refusal (Answer × Store)) : Answer × Store :=
  match result with
  | .ok outcome => outcome
  | .error refusal => (.refused refusal, store)

/-- Does what is asked for. -/
def serve (store : Store) : Request → Answer × Store
  | .register name operation =>
    store.settle ((store.register name operation).map fun next => (.done, next))
  | .load name markup =>
    store.settle ((store.load name markup).map fun made => (.made made.1, made.2))
  | .update name markup =>
    store.settle ((store.update name markup).map fun made => (.made made.1, made.2))
  | .delete name => store.settle ((store.delete name).map fun next => (.done, next))
  | .loadAll sources => (.loaded (store.loadAll sources).1, (store.loadAll sources).2)
  | .clear => (.done, store.clear)
  | .evaluate name evaluator records =>
    let (result, records) := store.evaluate name evaluator records
    (.evaluated result records, store)

/-- A request with its answer. -/
structure Exchange where
  /-- What was asked for. -/
  request : Request
  /-- What was answered. -/
  answer : Answer

/-- Does what is asked for, in order: the exchanges, and the store behind the last one. -/
def run (store : Store) : List Request → List Exchange × Store
  | [] => ([], store)
  | request :: more =>
    let served := store.serve request
    let later := served.2.run more
    (⟨request, served.1⟩ :: later.1, later.2)

/-- A batch as one request for each of its entries. -/
def Request.singles : Request → List Request
  | .loadAll sources => sources.map fun source => .load source.1 source.2
  | request => [request]

/-- Requests with all batches written as their entries. -/
def singles (requests : List Request) : List Request := requests.flatMap Request.singles

namespace Exchange

/-- The tree that the exchange put under a name. -/
def put? : Exchange → Option (String × RuleTree)
  | ⟨.load name _, .made tree⟩ => some (name, tree)
  | ⟨.update name _, .made tree⟩ => some (name, tree)
  | _ => none

/-- The exchange took away what was under a name. -/
def takes (name : String) : Exchange → Bool
  | ⟨.delete other, .done⟩ => other == name
  | ⟨.clear, .done⟩ => true
  | _ => false

/-- The exchange put a tree under a name or took one away. -/
def Concerns (name : String) (exchange : Exchange) : Prop :=
  (∃ tree, exchange.put? = some (name, tree)) ∨ exchange.takes name = true

end Exchange

/-- A tree was put under a name, and no later exchange concerns the name. -/
def Latest (exchanges : List Exchange) (name : String) (tree : RuleTree) : Prop :=
  ∃ earlier one later, exchanges = earlier ++ one :: later ∧ one.put? = some (name, tree) ∧
    ∀ other ∈ later, ¬ other.Concerns name

/-- The trees that were made, in order. -/
def made (exchanges : List Exchange) : List RuleTree :=
  exchanges.filterMap fun exchange => exchange.put?.map Prod.snd

/-- What an exchange does to the trees of a store and to the number of trees made. -/
inductive Effect (store next : Store) (exchange : Exchange) : Prop where
  /-- Nothing is put or taken away. -/
  | keep (hput : exchange.put? = none) (htakes : ∀ name, exchange.takes name = false)
    (htrees : next.trees = store.trees) (hversion : next.compiler.version = store.compiler.version)
  /-- A new tree is put under a name. -/
  | put (name : String) (tree : RuleTree) (hput : exchange.put? = some (name, tree))
    (htakes : ∀ name, exchange.takes name = false)
    (htrees : next.trees = bind name tree store.trees)
    (htree : tree.version = store.compiler.version + 1)
    (hversion : next.compiler.version = store.compiler.version + 1)
  /-- The tree under a name is taken away. -/
  | take (name : String) (hput : exchange.put? = none)
    (htakes : ∀ other, exchange.takes other = (name == other))
    (htrees : next.trees = store.trees.filter fun entry => entry.1 != name)
    (hversion : next.compiler.version = store.compiler.version)
  /-- All trees are taken away. -/
  | takeAll (hput : exchange.put? = none) (htakes : ∀ name, exchange.takes name = true)
    (htrees : next.trees = []) (hversion : next.compiler.version = store.compiler.version)

variable {store next : Store} {exchange : Exchange}

/-- Loading puts the tree under the name and counts it. -/
theorem load_cases {name markup : String} {tree : RuleTree}
    (h : store.load name markup = .ok (tree, next)) :
    tree.version = store.compiler.version + 1 ∧ next.trees = bind name tree store.trees ∧
      next.compiler.version = store.compiler.version + 1 := by
  obtain ⟨⟨made, compiler⟩, hcompile, h⟩ := Refusal.bind_eq_ok h
  obtain ⟨-, htree, hcompiler⟩ := Compiler.compile_cases hcompile
  cases h
  refine ⟨?_, rfl, ?_⟩
  · rw [htree]
    rfl
  · rw [hcompiler]

/-- Updating is loading where there is a tree under the name. -/
theorem update_eq_ok {name markup : String} {result : RuleTree × Store}
    (h : store.update name markup = .ok result) : store.load name markup = .ok result := by
  unfold update at h
  split at h
  · exact h
  · cases h

/-- A request for a tree puts it under its name or is refused. -/
theorem Effect.ofMade {request : Request} {name markup : String}
    {result : Except Refusal (RuleTree × Store)}
    (hput : ∀ tree, Exchange.put? ⟨request, .made tree⟩ = some (name, tree))
    (hrefused : ∀ refusal, Exchange.put? ⟨request, .refused refusal⟩ = none)
    (htakes : ∀ answer name, Exchange.takes name ⟨request, answer⟩ = false)
    (hload : ∀ made, result = .ok made → store.load name markup = .ok made) :
    Effect store (store.settle (result.map fun made => (.made made.1, made.2))).2
      ⟨request, (store.settle (result.map fun made => (.made made.1, made.2))).1⟩ := by
  cases result with
  | error refusal => exact .keep (hrefused refusal) (htakes _) rfl rfl
  | ok made =>
    obtain ⟨htree, htrees, hversion⟩ := load_cases (hload made rfl)
    exact .put name made.1 (hput made.1) (htakes _) htrees htree hversion

/-- A request that is no batch has one of the four effects. -/
theorem effect_serve (store : Store) {request : Request} (hs : request.singles = [request]) :
    Effect store (store.serve request).2 ⟨request, (store.serve request).1⟩ := by
  cases request with
  | register name operation =>
    cases hr : store.register name operation with
    | error refusal =>
      simp only [serve, hr]
      exact .keep rfl (fun _ => rfl) rfl rfl
    | ok next =>
      obtain ⟨compiler, hcompiler, h⟩ := Refusal.bind_eq_ok hr
      obtain ⟨registry, -, hregistry⟩ := Refusal.bind_eq_ok hcompiler
      cases h
      cases hregistry
      simp only [serve, hr]
      exact .keep rfl (fun _ => rfl) rfl rfl
  | load name markup => exact .ofMade (fun _ => rfl) (fun _ => rfl) (fun _ _ => rfl) fun _ => id
  | update name markup =>
    exact .ofMade (fun _ => rfl) (fun _ => rfl) (fun _ _ => rfl) fun _ => update_eq_ok
  | delete name =>
    cases hd : store.delete name with
    | error refusal =>
      simp only [serve, hd]
      exact .keep rfl (fun _ => rfl) rfl rfl
    | ok next =>
      simp only [serve, hd]
      unfold delete at hd
      split at hd
      · cases hd
        exact .take name rfl (fun _ => rfl) rfl rfl
      · cases hd
  | loadAll sources =>
    cases sources with
    | nil => cases hs
    | cons source more => cases hs
  | clear => exact .takeAll rfl (fun _ => rfl) rfl rfl
  | evaluate name evaluator records => exact .keep rfl (fun _ => rfl) rfl rfl

/-- Where a tree was taken away nothing is found, elsewhere what was found before. -/
theorem lookup_filter_ne (name other : String) (trees : List (String × RuleTree)) :
    (trees.filter fun entry => entry.1 != name).lookup other =
      if other = name then none else trees.lookup other := by
  induction trees with
  | nil => simp
  | cons entry more ih =>
    obtain ⟨first, tree⟩ := entry
    by_cases hf : first = name
    · rw [List.filter_cons_of_neg (by simp [hf]), ih, List.lookup_cons]
      by_cases ho : other = name
      · rw [if_pos ho, if_pos ho]
      · rw [if_neg ho, if_neg ho, beq_false_of_ne fun same => ho (same.trans hf)]
    · rw [List.filter_cons_of_pos (by simp [hf]), List.lookup_cons, List.lookup_cons, ih]
      by_cases ho : other = first
      · subst ho
        simp [hf]
      · rw [beq_false_of_ne ho]

/-- What is found behind an exchange is the tree that it put there, or what was found before if the
exchange does not concern the name. -/
theorem Effect.find?_eq_some_iff (h : Effect store next exchange) {name : String}
    {tree : RuleTree} : next.find? name = some tree ↔
      exchange.put? = some (name, tree) ∨
        (¬ exchange.Concerns name ∧ store.find? name = some tree) := by
  unfold find? Exchange.Concerns
  cases h with
  | keep hput htakes htrees _ => simp [hput, htakes, htrees]
  | put other made hput htakes htrees _ _ =>
    rw [htrees, lookup_bind]
    by_cases hn : name = other
    · simp [hput, hn]
    · simp [hput, htakes, hn, Ne.symm hn]
  | take other hput htakes htrees _ =>
    rw [htrees, lookup_filter_ne]
    by_cases hn : name = other
    · simp [hput, htakes, hn]
    · simp [hput, htakes, hn, Ne.symm hn]
  | takeAll hput htakes htrees _ => simp [hput, htakes, htrees]

/-- A result that is refused changes nothing. -/
theorem settle_refused {α : Type} {result : Except Refusal α} {give : α → Answer × Store}
    (hgive : ∀ value, (give value).1.refusal? = none) {refusal : Refusal}
    (h : (store.settle (result.map give)).1.refusal? = some refusal) :
    (store.settle (result.map give)).2 = store := by
  cases result with
  | error other => rfl
  | ok value => exact absurd ((hgive value).symm.trans h) (Option.some_ne_none refusal).symm

/-- A request that is refused changes nothing. -/
theorem serve_refused {request : Request} {refusal : Refusal}
    (h : (store.serve request).1.refusal? = some refusal) : (store.serve request).2 = store := by
  cases request with
  | register | load | update | delete =>
    simp only [serve] at h ⊢
    exact settle_refused (fun _ => rfl) h
  | loadAll | clear => cases h
  | evaluate => rfl

/-- A document that is not loaded is refused for what it says or for how it says it. -/
theorem parseOnly_load (store : Store) (name markup : String) :
    Refusal.ParseOnly (store.load name markup) :=
  (store.compiler.parseOnly_compile markup).bind fun _ => Refusal.parseOnly_ok _

/-- Two lists of requests are done one after the other. -/
theorem run_append (store : Store) (first second : List Request) :
    store.run (first ++ second) =
      ((store.run first).1 ++ ((store.run first).2.run second).1,
        ((store.run first).2.run second).2) := by
  induction first generalizing store with
  | nil => rfl
  | cons request more ih => simp only [List.cons_append, run, ih]

/-- A batch is its entries loaded one by one: it leaves the same store, and it answers with the
names of the entries that were compiled. -/
theorem loadAll_eq_run (store : Store) (sources : List (String × String)) :
    store.loadAll sources =
      ((store.run (sources.map fun source => .load source.1 source.2)).1.filterMap
          fun exchange => exchange.put?.map Prod.fst,
        (store.run (sources.map fun source => .load source.1 source.2)).2) := by
  induction sources generalizing store with
  | nil => rfl
  | cons source more ih =>
    obtain ⟨name, markup⟩ := source
    cases hl : store.load name markup with
    | error refusal => simp [loadAll, run, serve, settle, hl, ih, Except.map, Exchange.put?]
    | ok result => simp [loadAll, run, serve, settle, hl, ih, Except.map, Exchange.put?]

/-- Writing batches as their entries leads to the same store. -/
theorem run_singles (store : Store) (requests : List Request) :
    (store.run (singles requests)).2 = (store.run requests).2 := by
  induction requests generalizing store with
  | nil => rfl
  | cons request more ih =>
    have hfirst : (store.run request.singles).2 = (store.serve request).2 := by
      cases request with
      | loadAll sources => rw [Request.singles, serve, loadAll_eq_run]
      | register | load | update | delete | clear | evaluate => simp only [Request.singles, run]
    rw [singles, List.flatMap_cons, run_append, hfirst, ← singles, ih, run]

/-- There is no batch among requests with all batches written as their entries. -/
theorem singles_of_mem_singles {requests : List Request} {request : Request}
    (h : request ∈ singles requests) : request.singles = [request] := by
  obtain ⟨given, -, hr⟩ := List.mem_flatMap.mp h
  cases given with
  | loadAll sources =>
    obtain ⟨source, -, rfl⟩ := List.mem_map.mp hr
    rfl
  | register | load | update | delete | clear | evaluate =>
    rw [List.mem_singleton.mp hr]
    rfl

/-- The latest tree of a history that begins with an exchange. -/
theorem latest_cons {later : List Exchange} {name : String} {tree : RuleTree} :
    Latest (exchange :: later) name tree ↔ Latest later name tree ∨
      (exchange.put? = some (name, tree) ∧ ∀ other ∈ later, ¬ other.Concerns name) := by
  constructor
  · rintro ⟨earlier, one, rest, hsplit, hput, hrest⟩
    cases earlier with
    | nil =>
      obtain ⟨rfl, rfl⟩ := List.cons.inj hsplit
      exact .inr ⟨hput, hrest⟩
    | cons first earlier =>
      obtain ⟨-, hlater⟩ := List.cons.inj hsplit
      exact .inl ⟨earlier, one, rest, hlater, hput, hrest⟩
  · rintro (⟨earlier, one, rest, rfl, hput, hrest⟩ | ⟨hput, hrest⟩)
    · exact ⟨exchange :: earlier, one, rest, rfl, hput, hrest⟩
    · exact ⟨[], exchange, later, rfl, hput, hrest⟩

/-- What is found behind requests without batches is the latest tree of the exchanges, or what was
found before if no exchange concerns the name. -/
theorem find?_run {requests : List Request} (hs : ∀ request ∈ requests, request.singles = [request])
    {name : String} {tree : RuleTree} :
    (store.run requests).2.find? name = some tree ↔
      Latest (store.run requests).1 name tree ∨
        ((∀ exchange ∈ (store.run requests).1, ¬ exchange.Concerns name) ∧
          store.find? name = some tree) := by
  induction requests generalizing store with
  | nil =>
    have hnone : ¬ Latest [] name tree := by
      rintro ⟨earlier, one, later, h, -⟩
      exact List.cons_ne_nil _ _ (List.append_eq_nil_iff.mp h.symm).2
    simp [run, hnone]
  | cons request more ih =>
    obtain ⟨hrequest, hmore⟩ := List.forall_mem_cons.mp hs
    have heffect := effect_serve store hrequest
    simp only [run]
    rw [ih hmore, heffect.find?_eq_some_iff, latest_cons, List.forall_mem_cons]
    tauto

/-- The versions of the trees that requests without batches make are the numbers that follow that of
the compiler, one after the other. -/
theorem versions_run (store : Store) {requests : List Request}
    (hs : ∀ request ∈ requests, request.singles = [request])
    (hc : store.compiler.version.toNat + (made (store.run requests).1).length < UInt64.size) :
    (made (store.run requests).1).map (fun tree => tree.version.toNat) =
      List.range' (store.compiler.version.toNat + 1) (made (store.run requests).1).length := by
  induction requests generalizing store with
  | nil => rfl
  | cons request more ih =>
    obtain ⟨hrequest, hmore⟩ := List.forall_mem_cons.mp hs
    simp only [run, made] at ih hc ⊢
    cases effect_serve store hrequest with
    | put name tree hput _ _ htree hversion =>
      rw [List.filterMap_cons_some (by rw [hput]; rfl)] at hc ⊢
      rw [List.length_cons] at hc
      have hnext : (store.compiler.version + 1).toNat = store.compiler.version.toNat + 1 := by
        rw [UInt64.toNat_add]
        exact Nat.mod_eq_of_lt (by simp only [UInt64.size] at hc; simp; omega)
      rw [List.map_cons, List.length_cons, List.range'_succ, htree, hnext, ih _ hmore ?_, hversion,
        hnext]
      rw [hversion, hnext]
      omega
    | keep hput _ _ hversion | take name hput _ _ hversion | takeAll hput _ _ hversion =>
      rw [List.filterMap_cons_none (by rw [hput]; rfl)] at hc ⊢
      rw [← hversion] at hc ⊢
      exact ih _ hmore hc

/-- What a store does that begins with a compiler and without trees and serves requests in order. -/
structure Faithful (compiler : Compiler) (requests : List Request) : Prop where
  /-- A name leads to the tree of the latest exchange that put one there, and to nothing if there is
  no such exchange. -/
  find?_eq_some_iff : ∀ name tree, (run { compiler } requests).2.find? name = some tree ↔
    Latest (run { compiler } (singles requests)).1 name tree
  /-- The versions of the trees, in the order in which they were made, are the numbers behind that
  of the compiler. -/
  versions : (made (run { compiler } (singles requests)).1).map (fun tree => tree.version.toNat) =
    List.range' (compiler.version.toNat + 1) (made (run { compiler } (singles requests)).1).length
  /-- No two trees have the same version. -/
  distinct : ((made (run { compiler } (singles requests)).1).map RuleTree.version).Nodup
  /-- A request that is refused next leaves the trees, the count and the operators as they are. -/
  refused : ∀ request refusal,
    ((run { compiler } requests).2.serve request).1.refusal? = some refusal →
    ((run { compiler } requests).2.serve request).2 = (run { compiler } requests).2
  /-- Loading is refused only for the document. -/
  load : ∀ name markup refusal,
    ((run { compiler } requests).2.serve (.load name markup)).1 = .refused refusal →
    refusal.isParseError = true
  /-- Updating is refused only for the document where there is a tree under the name. -/
  update : ∀ name markup refusal, (run { compiler } requests).2.contains name = true →
    ((run { compiler } requests).2.serve (.update name markup)).1 = .refused refusal →
    refusal.isParseError = true
  /-- A batch is its entries loaded one by one, and it answers with the names of those that were
  compiled, in order. -/
  batch : ∀ sources, (run { compiler } requests).2.serve (.loadAll sources) =
    (.loaded (((run { compiler } requests).2.run
        (sources.map fun source => .load source.1 source.2)).1.filterMap
          fun exchange => exchange.put?.map Prod.fst),
      ((run { compiler } requests).2.run (sources.map fun source => .load source.1 source.2)).2)

/-- A refusal in the answer to a document is the refusal of the store. -/
theorem eq_error_of_settle {result : Except Refusal (RuleTree × Store)} {refusal : Refusal}
    (h : (store.settle (result.map fun made => (.made made.1, made.2))).1 = .refused refusal) :
    result = .error refusal := by
  cases result with
  | ok made => cases h
  | error other =>
    cases h
    rfl

/-- Whatever a store is asked for, it keeps the latest trees under their names, counts the trees it
makes from the number on that its compiler begins with, and changes nothing where it refuses. -/
theorem faithful (compiler : Compiler) (requests : List Request)
    (hc : compiler.version.toNat + (made (run { compiler } (singles requests)).1).length <
      UInt64.size) : Faithful compiler requests := by
  have hversions := versions_run { compiler } (fun _ => singles_of_mem_singles) hc
  refine ⟨fun name tree => ?_, hversions, ?_, fun _ _ => serve_refused, ?_, ?_, ?_⟩
  · rw [← run_singles, find?_run fun _ => singles_of_mem_singles]
    exact or_iff_left fun h => nomatch h.2
  · have hnodup : (((made (run { compiler } (singles requests)).1).map RuleTree.version).map
        UInt64.toNat).Nodup := by
      rw [List.map_map]
      exact hversions ▸ List.nodup_range'
    exact List.Pairwise.of_map UInt64.toNat (fun _ _ hne heq => hne (congrArg UInt64.toNat heq))
      hnodup
  · exact fun name markup refusal h => parseOnly_load _ name markup refusal (eq_error_of_settle h)
  · intro name markup refusal hcontains h
    have hupdate := eq_error_of_settle h
    rw [Store.update, if_pos hcontains] at hupdate
    exact parseOnly_load _ name markup refusal hupdate
  · intro sources
    rw [serve, loadAll_eq_run]

/-- Requests among which are refused documents and names, a batch with a name given twice and an
entry that is refused, and a tree that is taken away again. -/
def sample : List Request :=
  [.load "a" "<if></if>", .load "b" "", .register "not" fun text _ _ _ => text,
    .loadAll [("a", "<eval>(N.Owner) POPULATED</eval>"), ("c", "<if>"), ("a", "<validate/>")],
    .update "z" "<if></if>", .delete "c", .load "d" "<if></if>",
    .update "a" "<eval>(N.Owner) LIKE ('x')</eval>", .delete "d"]

/-- The store of the sample made four trees and keeps the last one of the batch. -/
theorem faithful_sample :
    (made (run { compiler := .ofCatalog (.ofList [⟨1, 1, "Owner"⟩]) } (singles sample)).1).map
        RuleTree.version = [1, 2, 3, 4] ∧
      (run { compiler := .ofCatalog (.ofList [⟨1, 1, "Owner"⟩]) } sample).2.names = ["a"] ∧
      Faithful (.ofCatalog (.ofList [⟨1, 1, "Owner"⟩])) sample := by
  have hversions : (made (run { compiler := .ofCatalog (.ofList [⟨1, 1, "Owner"⟩]) }
      (singles sample)).1).map RuleTree.version = [1, 2, 3, 4] := by decide +kernel
  refine ⟨hversions, by decide +kernel, faithful _ _ ?_⟩
  have hlength := congrArg List.length hversions
  rw [List.length_map] at hlength
  rw [hlength]
  decide +kernel

end Store

end Rulebook
