import Rulebook.Proofs.Compiler.Growth

/-!
# What holds at every rule set of a compiled tree

A rule of a compiled tree can be read again from the text that it keeps, with any number and name.
Only checks have a severity, a message or a name of failures, and no rule set below another one is a
root. `Sound` says so of one rule set, and growing keeps it for all rule sets of a tree.
-/

namespace Rulebook

open OutlineItem (ProperText)

/-- The number and the name of a rule have no part in how it is read. -/
theorem RuleReader.read_eq_map (reader : RuleReader) (expression : String) (id : UInt32)
    (label : Option String) :
    reader.read expression id label =
      (fun rule : Rule => { rule with id, label }) <$> reader.read expression 0 none := by
  unfold read
  cases Shape.ofText? expression.toList with
  | none => rfl
  | some shape =>
    simp only
    cases reader.readLink shape.target with
    | error refusal => rfl
    | ok target =>
      by_cases hs : shape.segment = []
      · simp only [bind, Except.bind, if_pos hs]
        rfl
      · simp only [bind, Except.bind, if_neg hs]
        cases findOperator? (String.ofList shape.segment) reader.registry.names with
        | none => rfl
        | some found =>
          simp only
          cases reader.readClause expression ((shape.operands.map splitOperands).getD [])
            found.token with
          | error refusal => rfl
          | ok reading => rfl

/-- A rule keeps the number, the name and the trimmed text that it is read with. -/
theorem RuleReader.read_keeps {reader : RuleReader} {expression : String} {id : UInt32}
    {label : Option String} {rule : Rule} (h : reader.read expression id label = .ok rule) :
    rule.id = id ∧ rule.label = label ∧ rule.expression = Text.trimmed expression := by
  unfold read at h
  cases hshape : Shape.ofText? expression.toList with
  | none =>
    rw [hshape] at h
    cases h
  | some shape =>
    rw [hshape] at h
    simp only at h
    cases ht : reader.readLink shape.target with
    | error refusal =>
      rw [ht] at h
      cases h
    | ok target =>
      rw [ht] at h
      by_cases hs : shape.segment = []
      · simp only [bind, Except.bind, if_pos hs] at h
        cases h
      · simp only [bind, Except.bind, if_neg hs] at h
        cases hf : findOperator? (String.ofList shape.segment) reader.registry.names with
        | none =>
          rw [hf] at h
          cases h
        | some found =>
          rw [hf] at h
          simp only at h
          cases hc : reader.readClause expression ((shape.operands.map splitOperands).getD [])
              found.token with
          | error refusal =>
            rw [hc] at h
            cases h
          | ok reading =>
            rw [hc] at h
            cases h
            exact ⟨rfl, rfl, rfl⟩

/-- The rule is read again from the text that it keeps, with any number and name. -/
structure Rule.Readable (reader : RuleReader) (rule : Rule) : Prop where
  /-- The text is not empty. -/
  ne_empty : rule.expression ≠ ""
  /-- The text has no blanks around it and begins no tag. -/
  proper : ProperText rule.expression
  /-- The text is read as the rule. -/
  read (id : UInt32) (label : Option String) :
    reader.read rule.expression id label = .ok { rule with id, label }

/-- A rule that was read from a proper text is read again from the text that it keeps. -/
theorem Rule.readable_of_read {reader : RuleReader} {text : String} {id : UInt32}
    {label : Option String} {rule : Rule} (hne : text ≠ "") (ht : ProperText text)
    (h : reader.read text id label = .ok rule) : rule.Readable reader := by
  have he : rule.expression = text := (RuleReader.read_keeps h).2.2.trans ht.1
  refine ⟨he ▸ hne, he ▸ ht, fun id' label' => ?_⟩
  have hagain : reader.read text id' label' = .ok { rule with id := id', label := label' } := by
    rw [RuleReader.read_eq_map] at h ⊢
    cases hr : reader.read text 0 none with
    | error refusal =>
      rw [hr] at h
      cases h
    | ok first =>
      rw [hr] at h
      cases h
      rfl
  exact (congrArg (fun expression => reader.read expression id' label') he).trans hagain

namespace RuleSet

/-- What holds at every rule set of a compiled tree. -/
structure Sound (reader : RuleReader) (set : RuleSet) : Prop where
  /-- The rules are read again from the texts that they keep. -/
  rules : ∀ rule ∈ set.head.rules, rule.Readable reader
  /-- Only checks have a severity, a message or a name of failures. -/
  names : set.head.kind ≠ .validate →
    set.head.severity = none ∧ set.head.failureMessage = none ∧ set.head.customId = none
  /-- No rule set below is a root. -/
  kinds : ∀ child ∈ set.children, child.head.kind ≠ .root

/-- The rule sets of two lists of trees are those of the one and of the other. -/
theorem preorderAll_append (left right : List RuleSet) :
    preorderAll (left ++ right) = preorderAll left ++ preorderAll right := by
  induction left with
  | nil => rfl
  | cons set more ih =>
    rw [List.cons_append, preorderAll, preorderAll, ih, List.append_assoc]

/-- A rule that was added is a rule of the head, and so are those that were there before. -/
theorem Head.mem_rules_addRule_iff {head : Head} {rule other : Rule} :
    other ∈ (head.addRule rule).rules ↔ other ∈ head.rules ∨ other = rule := by
  unfold Head.addRule Head.rules
  split
  · simp only [List.mem_append, List.mem_singleton]
    tauto
  · simp only [List.mem_append, List.mem_singleton]
    tauto

/-- Growing keeps what holds at every rule set of a compiled tree. -/
theorem Grows.sound {reader : RuleReader} {set last : RuleSet} {numbering after : Numbering}
    (h : Grows reader set numbering last after)
    (hs : ∀ node ∈ set.preorder, node.Sound reader) :
    ∀ node ∈ last.preorder, node.Sound reader := by
  induction h with
  | done => exact hs
  | @rule head children _ _ _ _ _ rule hne ht hread _ ih =>
    obtain ⟨hset, hbelow⟩ := List.forall_mem_cons.mp hs
    refine ih (List.forall_mem_cons.mpr ⟨⟨?_, ?_, hset.kinds⟩, hbelow⟩)
    · intro other ho
      rcases Head.mem_rules_addRule_iff.mp ho with ho | rfl
      · exact hset.rules other ho
      · exact Rule.readable_of_read hne ht hread
    · have hnames := hset.names
      simp only [Head.addRule]
      split <;> exact hnames
  | join combinator _ ih =>
    obtain ⟨hset, hbelow⟩ := List.forall_mem_cons.mp hs
    exact ih (List.forall_mem_cons.mpr ⟨⟨hset.rules, hset.names, hset.kinds⟩, hbelow⟩)
  | name failureMessage customId hk _ ih =>
    obtain ⟨hset, hbelow⟩ := List.forall_mem_cons.mp hs
    refine ih (List.forall_mem_cons.mpr ⟨⟨hset.rules, ?_, hset.kinds⟩, hbelow⟩)
    exact fun hn => absurd hk hn
  | @node head children _ _ _ child _ kind description severity hk hsev hinside _ ihinside ihmore =>
    obtain ⟨hset, hbelow⟩ := List.forall_mem_cons.mp hs
    have hchild : ∀ node ∈ child.preorder, node.Sound reader := by
      refine ihinside (List.forall_mem_cons.mpr ⟨⟨?_, ?_, ?_⟩, ?_⟩)
      · exact fun _ hm => absurd hm List.not_mem_nil
      · intro hn
        refine ⟨?_, rfl, rfl⟩
        by_contra hsome
        exact hn (hsev hsome)
      · exact fun _ hm => absurd hm List.not_mem_nil
      · exact fun _ hm => absurd hm List.not_mem_nil
    refine ihmore (List.forall_mem_cons.mpr ⟨⟨hset.rules, hset.names, ?_⟩, ?_⟩)
    · intro other ho
      rcases List.mem_append.mp ho with ho | ho
      · exact hset.kinds other ho
      · rw [List.mem_singleton.mp ho, hinside.head_eq.2.2.1]
        exact hk
    · intro node hn
      rw [preorderAll_append] at hn
      rcases List.mem_append.mp hn with hn | hn
      · exact hbelow node hn
      · rw [preorderAll, preorderAll, List.append_nil] at hn
        exact hchild node hn

/-- The empty root is sound. -/
theorem sound_root (reader : RuleReader) : ∀ node ∈ root.preorder, node.Sound reader := by
  intro node hn
  rw [List.mem_singleton.mp hn]
  refine ⟨?_, fun _ => ⟨rfl, rfl, rfl⟩, ?_⟩
  · exact fun _ hm => absurd hm List.not_mem_nil
  · exact fun _ hm => absurd hm List.not_mem_nil

end RuleSet

/-- Every rule set of a compiled tree is sound. -/
theorem Compiler.sound_of_compileRoot {compiler : Compiler} {markup : String} {root : RuleSet}
    (h : compiler.compileRoot markup = .ok root) :
    ∀ node ∈ root.preorder, node.Sound compiler.reader := by
  obtain ⟨_, -, hgrows⟩ := compileRoot_grows h
  exact hgrows.sound (RuleSet.sound_root compiler.reader)

end Rulebook
