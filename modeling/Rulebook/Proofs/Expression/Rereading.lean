import Rulebook.Proofs.Compiler.Sound
import Rulebook.Proofs.Expression.Opposite

/-!
# Reading rules again

A rule keeps its text without the blanks around it, and is read from this text as the same rule. A
reader with the same attributes and the same names of operators, and with the same pattern of dates
where there is a date to read, reads the rule too: the bounds of a limit may differ, and nothing
else does.
-/

namespace Rulebook

open Text (trim trimStart trimEnd)

namespace Shape

/-- A text between the first parentheses is what stands between them. -/
theorem of_parenthesis? {text target rest : List Char}
    (h : parenthesis? text = some (target, rest)) :
    text = '(' :: (target ++ ')' :: rest) ∧ ∀ c ∈ target, isPlain c = true := by
  unfold parenthesis? at h
  split at h
  · split at h
    · next more hmore =>
      cases h
      refine ⟨?_, fun _ => List.mem_takeWhile_imp⟩
      rw [← hmore, List.takeWhile_append_dropWhile]
    · cases h
  · cases h

theorem open_of_unsigned? {negated : Bool} {text : List Char} {shape : Shape}
    (h : unsigned? negated text = some shape) : ∃ rest, text = '(' :: rest := by
  obtain ⟨⟨target, rest⟩, hp, -⟩ := Option.bind_eq_some_iff.mp h
  exact ⟨_, (of_parenthesis? hp).1⟩

/-- Blanks at the end do not change the operator and the operands. -/
theorem operands?_trimEnd (rest : List Char) :
    operands? ((trimEnd rest).dropWhile (· != '(')) = operands? (rest.dropWhile (· != '(')) ∧
      trim ((trimEnd rest).takeWhile (· != '(')) = trim (rest.takeWhile (· != '(')) := by
  by_cases hopen : '(' ∈ rest
  · obtain ⟨segment, body, rfl, hfree⟩ := List.eq_append_cons_of_mem hopen
    have hend : trimEnd (segment ++ '(' :: body) = segment ++ '(' :: trimEnd body :=
      Text.trimEnd_append_cons segment body (by decide)
    have hbody : trimEnd (trimEnd body) = trimEnd body :=
      List.rdropWhile_idempotent (p := Text.isBlank) body
    obtain ⟨htake, hdrop⟩ := span_open hfree body
    obtain ⟨htake', hdrop'⟩ := span_open hfree (trimEnd body)
    rw [hend, htake, hdrop, htake', hdrop', operands?, operands?, hbody]
    exact ⟨rfl, rfl⟩
  · have hclosed : '(' ∉ trimEnd rest := fun hm =>
      hopen ((List.rdropWhile_prefix Text.isBlank rest).subset hm)
    have hspan : ∀ text : List Char, '(' ∉ text →
        text.takeWhile (· != '(') = text ∧ text.dropWhile (· != '(') = [] := by
      intro text hfree
      have hall : ∀ c ∈ text, (c != '(') = true := fun c hc =>
        bne_iff_ne.mpr fun heq => hfree (heq ▸ hc)
      exact ⟨List.takeWhile_eq_self_iff.mpr hall, List.dropWhile_eq_nil_iff.mpr hall⟩
    rw [(hspan _ hopen).1, (hspan _ hopen).2, (hspan _ hclosed).1, (hspan _ hclosed).2]
    exact ⟨rfl, Text.trim_trimEnd rest⟩

/-- Blanks at the end do not change the parts behind a leading `NOT`. -/
theorem unsigned?_trimEnd {negated : Bool} {text : List Char} {shape : Shape}
    (h : unsigned? negated text = some shape) : unsigned? negated (trimEnd text) = some shape := by
  obtain ⟨⟨target, rest⟩, hp, hparts⟩ := Option.bind_eq_some_iff.mp h
  obtain ⟨rfl, hplain⟩ := of_parenthesis? hp
  have hend : trimEnd ('(' :: (target ++ ')' :: rest)) = '(' :: (target ++ ')' :: trimEnd rest) :=
    Text.trimEnd_append_cons ('(' :: target) rest (by decide)
  obtain ⟨hoperands, hsegment⟩ := operands?_trimEnd rest
  rw [hend, unsigned?, parenthesis?_target hplain]
  simp only [Option.bind_eq_bind, Option.bind_some, hoperands, hsegment]
  exact hparts

/-- Blanks at the end do not change where a leading `NOT` ends, if a parenthesis follows. -/
theorem afterNot?_trimEnd {text rest : List Char} (h : afterNot? text = some ('(' :: rest)) :
    afterNot? (trimEnd text) = some (trimEnd ('(' :: rest)) := by
  unfold afterNot? at h
  split at h
  · next n o t blank more =>
    split at h
    · next hword =>
      obtain ⟨front, hmore⟩ := Text.exists_trimStart more
      rw [Option.some.inj h] at hmore
      have hopen : Text.isBlank '(' = false := by decide
      have hend : trimEnd (n :: o :: t :: blank :: more) =
          n :: o :: t :: blank :: (front.text ++ '(' :: trimEnd rest) := by
        rw [hmore]
        exact Text.trimEnd_append_cons (n :: o :: t :: blank :: front.text) rest hopen
      have hrest : trimEnd ('(' :: rest) = '(' :: trimEnd rest :=
        Text.trimEnd_append_cons [] rest hopen
      rw [hend, afterNot?, if_pos hword, Text.trimStart_blanks, Text.trimStart_cons hopen, hrest]
    · cases h
  · cases h

/-- Blanks around a text do not change its parts. -/
theorem ofText?_trim {text : List Char} {shape : Shape} (h : ofText? text = some shape) :
    ofText? (trim text) = some shape := by
  have hstart : trimStart (trim text) = trim text :=
    Text.trimStart_eq_self (Text.head?_trimEnd (Text.head?_trimStart text))
  rw [ofText?, hstart, trim]
  unfold ofText? at h
  cases hn : afterNot? (trimStart text) with
  | some rest =>
    rw [hn] at h
    obtain ⟨inside, rfl⟩ := open_of_unsigned? h
    rw [afterNot?_trimEnd hn]
    exact unsigned?_trimEnd h
  | none =>
    rw [hn] at h
    obtain ⟨inside, hinside⟩ := open_of_unsigned? h
    have hend : trimEnd ('(' :: inside) = '(' :: trimEnd inside :=
      Text.trimEnd_append_cons [] inside (by decide)
    have hnone : afterNot? (trimEnd (trimStart text)) = none := by
      rw [hinside, hend, afterNot?_open]
    rw [hnone]
    exact unsigned?_trimEnd h

end Shape

namespace RuleReader

variable {reader : RuleReader} {text : String} {id : UInt32} {label : Option String} {rule : Rule}

/-- A rule is read again from its text without the blanks around it. -/
theorem read_trimmed (h : reader.read text id label = .ok rule) :
    reader.read (Text.trimmed text) id label = .ok rule := by
  obtain ⟨shape, link, found, reading, hs, hlink, hsegment, hf, hclause, rfl⟩ := shape_of_read h
  have hshape : Shape.ofText? (Text.trimmed text).toList = some shape := by
    rw [Text.trimmed, String.toList_ofList]
    exact Shape.ofText?_trim hs
  rw [read_of_shape hshape hlink hsegment hf,
    reader.carries_readClause text (Text.trimmed text) _ _ _ hclause, Except.map, Shape.rule,
    Shape.rule, Text.trimmed_trimmed]

/-- A text that is read as a rule is not blank. -/
theorem trimmed_ne_of_read (h : reader.read text id label = .ok rule) : Text.trimmed text ≠ "" := by
  obtain ⟨shape, -, -, -, hs, -⟩ := shape_of_read (read_trimmed h)
  intro hnil
  rw [hnil] at hs
  cases hs

end RuleReader

namespace RuleReader

variable {reader other : RuleReader}

/-- Readers with the same attributes read the same targets. -/
theorem readLink_eq (hc : other.catalog = reader.catalog) (text : List Char) :
    other.readLink text = reader.readLink text := by
  rw [readLink, readLink, hc]

/-- Readers with the same attributes read the same operands. -/
theorem readOperand_eq (hc : other.catalog = reader.catalog) (expression : String)
    (operand : List Char) :
    other.readOperand expression operand = reader.readOperand expression operand := by
  rw [readOperand, readOperand]
  simp only [readLink_eq hc]

theorem readOperands_eq (hc : other.catalog = reader.catalog) (expression : String)
    (operands : List (List Char)) :
    other.readOperands expression operands = reader.readOperands expression operands := by
  rw [readOperands, readOperands, funext (readOperand_eq hc expression)]

/-- Readers with the same attributes and the same pattern read the same dates. -/
theorem readDateOperand_eq (hc : other.catalog = reader.catalog)
    (hd : other.datePattern = reader.datePattern) (expression : String) (operand : List Char) :
    other.readDateOperand expression operand = reader.readDateOperand expression operand := by
  rw [readDateOperand, readDateOperand, hd]
  simp only [readLink_eq hc]

/-- Readers with the same attributes read the same clauses for operators that are neither limits nor
custom. -/
theorem readBasic_eq (hc : other.catalog = reader.catalog) (expression : String)
    (operands : List (List Char)) (operator : BasicOperator) :
    other.readBasic expression operands operator =
      reader.readBasic expression operands operator := by
  cases operator with
  | notPopulated | populated => rfl
  | notEqual | equal | notIn | isIn | existsAs =>
    simp only [readBasic, readDomain, readOperands_eq hc]
  | default | assign => simp only [readBasic, readAssignment, readOperand_eq hc]
  | assignSum | assignDiff | assignProd | assignQuot =>
    simp only [readBasic, readArithmetic, readOperands_eq hc]

/-- An operand that makes a bound makes one with every offset. -/
theorem exists_numericBound {expression : String} {operand : Source} {offset : Float}
    {bound : NumericBound} (h : numericBound expression operand offset = .ok bound)
    (shift : Float) : ∃ moved, numericBound expression operand shift = .ok moved := by
  cases operand with
  | linked link => exact ⟨_, rfl⟩
  | literal text =>
    rw [numericBound] at h ⊢
    cases hn : readNumber text with
    | ok value => exact ⟨_, rfl⟩
    | error fault =>
      rw [hn] at h
      cases h

/-- An operand that makes a range makes one for every reader. -/
theorem exists_numericRange {expression : String} {comparison : Comparison} {operand : Source}
    {range : NumericBound × NumericBound}
    (h : reader.numericRange expression comparison operand = .ok range) (other : RuleReader) :
    ∃ moved, other.numericRange expression comparison operand = .ok moved := by
  have hbound : ∀ shift, ∃ moved, numericBound expression operand shift = .ok moved := by
    cases comparison with
    | lt | gt | le | ge | eq =>
      obtain ⟨bound, hb, -⟩ := Refusal.bind_eq_ok h
      exact exists_numericBound hb
  obtain ⟨lower, hlower⟩ := hbound (-other.epsilon)
  obtain ⟨upper, hupper⟩ := hbound other.epsilon
  obtain ⟨same, hsame⟩ := hbound 0.0
  cases comparison with
  | lt => exact ⟨_, by rw [numericRange, hlower]; rfl⟩
  | gt => exact ⟨_, by rw [numericRange, hupper]; rfl⟩
  | le | ge | eq => exact ⟨_, by rw [numericRange, hsame]; rfl⟩

/-- A clause that one reader reads is read by the other one with the same operands. -/
theorem exists_readClause (hc : other.catalog = reader.catalog) {expression : String}
    {operands : List (List Char)} {token : OperatorToken} {clause : Clause} {sources : List Source}
    (hd : token.kind = .dateLimit → other.datePattern = reader.datePattern)
    (h : reader.readClause expression operands token = .ok (clause, sources)) :
    ∃ same, other.readClause expression operands token = .ok (same, sources) := by
  cases token with
  | custom name =>
    refine ⟨clause, ?_⟩
    simp only [readClause, readOperands_eq hc] at h ⊢
    exact h
  | basic operator => exact ⟨clause, (readBasic_eq hc expression operands operator).trans h⟩
  | date comparison =>
    refine ⟨clause, ?_⟩
    simp only [readClause, readDateOperand_eq hc (hd rfl)] at h ⊢
    exact h
  | limit comparison =>
    obtain ⟨operand, hsingle, h⟩ := Refusal.bind_eq_ok h
    obtain ⟨source, hsource, h⟩ := Refusal.bind_eq_ok h
    obtain ⟨range, hrange, h⟩ := Refusal.bind_eq_ok h
    cases h
    obtain ⟨moved, hmoved⟩ := exists_numericRange hrange other
    refine ⟨.numericLimit comparison moved.1 moved.2, ?_⟩
    rw [readClause, hsingle]
    simp only [bind, Except.bind, readOperand_eq hc, hsource, hmoved]
    rfl

/-- A rule that one reader reads is read by the other one, with bounds of its own. -/
theorem exists_read (hc : other.catalog = reader.catalog)
    (hn : other.registry.names = reader.registry.names) {text : String} {id : UInt32}
    {label : Option String} {rule : Rule} (h : reader.read text id label = .ok rule)
    (hd : rule.clause.kind = .dateLimit → other.datePattern = reader.datePattern) :
    ∃ clause, clause.kind = rule.clause.kind ∧
      other.read text id label = .ok { rule with clause } := by
  obtain ⟨shape, link, found, ⟨clause, sources⟩, hs, hlink, hsegment, hf, hclause, rfl⟩ :=
    shape_of_read h
  have hkind : clause.kind = found.token.kind := kind_of_readClause hclause
  obtain ⟨same, hsame⟩ := exists_readClause hc (fun ht => hd (hkind.trans ht)) hclause
  rw [← readLink_eq hc] at hlink
  rw [← hn] at hf
  refine ⟨same, (kind_of_readClause hsame).trans hkind.symm, ?_⟩
  rw [read_of_shape hs hlink hsegment hf, hsame]
  rfl

end RuleReader

namespace Rule

/-- The rule was read, from any text and with any number and name, by a reader with the attributes
and the names of operators of a given one, and with its pattern of dates if it is a limit on dates.
-/
def WasRead (reader : RuleReader) (rule : Rule) : Prop :=
  ∃ (source : RuleReader) (text : String) (id : UInt32) (label : Option String),
    source.catalog = reader.catalog ∧ source.registry.names = reader.registry.names ∧
      (rule.clause.kind = .dateLimit → source.datePattern = reader.datePattern) ∧
      source.read text id label = .ok rule

/-- A rule that was read can be read again from the text that it keeps, if this text begins no tag;
only the bounds of a limit may differ. -/
theorem WasRead.readable {reader : RuleReader} {rule : Rule} (h : rule.WasRead reader)
    (hp : '<' ∉ rule.expression.toList) :
    ∃ clause, clause.kind = rule.clause.kind ∧ Readable reader { rule with clause } := by
  obtain ⟨source, text, id, label, hc, hn, hd, hread⟩ := h
  obtain ⟨clause, hkind, hagain⟩ :=
    RuleReader.exists_read hc.symm hn.symm hread fun hk => (hd hk).symm
  have he : rule.expression = Text.trimmed text := (RuleReader.read_keeps hread).2.2
  have hproper : OutlineItem.ProperText (Text.trimmed text) :=
    ⟨Text.trimmed_trimmed text, he ▸ hp⟩
  exact ⟨clause, hkind, readable_of_read (RuleReader.trimmed_ne_of_read hread) hproper
    (RuleReader.read_trimmed hagain)⟩

end Rule

end Rulebook
