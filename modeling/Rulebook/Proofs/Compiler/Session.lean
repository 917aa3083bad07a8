import Rulebook.Proofs.Compiler.Numbering
import Rulebook.Proofs.Expression.Clauses
import Rulebook.Proofs.Operator.Registration

/-!
# Compilers at work

A session is a compiler that is asked to register operators and to compile documents, in any order;
what it refuses changes nothing. Every tree of a session brings the operators that its rules need,
whatever is registered later.
-/

namespace Rulebook

/-- Every custom operator in the rules of a tree is one of those that the tree keeps, and these are
found under their names. -/
structure RuleTree.Bound (tree : RuleTree) : Prop where
  /-- The names in the rules are names that the tree keeps. -/
  registered : ∀ rule ∈ tree.root.allRules, ∀ name arguments,
    rule.clause = .custom name arguments → name ∈ tree.registry.names
  /-- The operators that the tree keeps were registered. -/
  made : tree.registry.Made

namespace Compiler

variable {compiler next : Compiler}

/-- A compiled tree keeps the operators that its rules need. -/
theorem bound_of_compile {markup : String} {tree : RuleTree} (hm : compiler.registry.Made)
    (h : compiler.compile markup = .ok (tree, next)) : tree.Bound := by
  obtain ⟨hroot, htree, -⟩ := compile_cases h
  have hsound := sound_of_compileRoot hroot
  have hregistry : tree.registry = compiler.registry := by
    rw [htree]
    rfl
  refine ⟨fun rule hr name arguments hc => ?_, hregistry ▸ hm⟩
  obtain ⟨set, hs, hr⟩ := List.mem_flatMap.mp hr
  have hread := ((hsound set hs).rules rule hr).read rule.id rule.label
  rw [hregistry]
  exact RuleReader.registered_of_read hread hc

/-- Registering with a compiler keeps it that all names were registered. -/
theorem made_of_register {name : String} {operation : Operation} (hm : compiler.registry.Made)
    (h : compiler.register name operation = .ok next) : next.registry.Made := by
  obtain ⟨registry, hregister, h⟩ := Refusal.bind_eq_ok h
  cases h
  exact hm.register hregister

/-- What a compiler is asked for. -/
inductive Request where
  /-- To register a custom operator. -/
  | register (name : String) (operation : Operation)
  /-- To make the tree that a document describes. -/
  | compile (markup : String)

/-- A compiler at work. -/
structure Session where
  /-- The compiler as it is now. -/
  compiler : Compiler
  /-- The trees that were made so far, in order. -/
  trees : List RuleTree := []

namespace Session

/-- Does what is asked for; what is refused changes nothing. -/
def serve (session : Session) : Request → Session
  | .register name operation =>
    match session.compiler.register name operation with
    | .ok compiler => { session with compiler }
    | .error _ => session
  | .compile markup =>
    match session.compiler.compile markup with
    | .ok (tree, compiler) => { compiler, trees := session.trees ++ [tree] }
    | .error _ => session

/-- Does what is asked for, in order. -/
def serveAll (session : Session) (requests : List Request) : Session :=
  requests.foldl serve session

/-- All operators of a session were registered, and all trees keep the operators that they need. -/
structure Valid (session : Session) : Prop where
  /-- The operators of the compiler were registered. -/
  made : session.compiler.registry.Made
  /-- The trees keep the operators that they need. -/
  bound : ∀ tree ∈ session.trees, tree.Bound

/-- A request keeps it that all trees have the operators that they need. -/
theorem Valid.serve {session : Session} (h : session.Valid) (request : Request) :
    (session.serve request).Valid := by
  cases request with
  | register name operation =>
    unfold Session.serve
    dsimp only
    generalize hr : session.compiler.register name operation = result
    cases result with
    | ok compiler =>
      have hm := made_of_register h.made hr
      exact ⟨hm, h.bound⟩
    | error refusal => exact h
  | compile markup =>
    unfold Session.serve
    dsimp only
    generalize hc : session.compiler.compile markup = result
    cases result with
    | error refusal => exact h
    | ok made =>
      obtain ⟨tree, compiler⟩ := made
      obtain ⟨-, -, hnext⟩ := compile_cases hc
      refine ⟨?_, fun other ho => ?_⟩
      · dsimp only
        rw [hnext]
        exact h.made
      · rcases List.mem_append.mp ho with ho | ho
        · exact h.bound other ho
        · rw [List.mem_singleton.mp ho]
          exact bound_of_compile h.made hc

/-- Requests keep it that all trees have the operators that they need. -/
theorem Valid.serveAll {session : Session} (h : session.Valid) (requests : List Request) :
    (session.serveAll requests).Valid := by
  induction requests generalizing session with
  | nil => exact h
  | cons request more ih => exact ih (h.serve request)

/-- Every tree of a session that began without operators keeps the operators that it needs. -/
theorem bound_of_serveAll {compiler : Compiler} (hnew : compiler.registry = .empty)
    (requests : List Request) {tree : RuleTree}
    (ht : tree ∈ (serveAll { compiler } requests).trees) : tree.Bound := by
  have hmade : compiler.registry.Made := by
    rw [hnew]
    exact Registry.made_empty
  have hstart : Session.Valid { compiler } := ⟨hmade, fun _ hm => absurd hm List.not_mem_nil⟩
  exact (hstart.serveAll requests).bound tree ht

end Session

end Compiler

end Rulebook
