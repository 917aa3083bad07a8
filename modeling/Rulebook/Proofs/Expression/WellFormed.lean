import Rulebook.Proofs.Evaluation.Agreement
import Rulebook.Proofs.Expression.Opposite
import Rulebook.Proofs.Expression.Written

/-!
# Rules that are read are well formed

The operands of a rule and its clause are made side by side, and those who run or export rules rely
on it that the two tell the same story. `OperatorToken.Makes` says which clause an operator makes of
operands, without the reader: which members a set has, where the ends of a range come from, and how
many operands there are. A rule that is read has the clause that a phrase of the registry makes of
its operands, and names only attributes that the catalog has.
-/

namespace Rulebook

open Calendar (Date)
open RuleReader (leastNumber greatestNumber)

/-- A link is what the catalog has under its name, in one of the two records. -/
structure Link.Listed (catalog : Catalog) (link : Link) : Prop where
  /-- The attribute is the one that its name stands for. -/
  entry : catalog.byName? link.attr.name = some link.attr
  /-- The record is the new one or the old one. -/
  record : link.record = .new ∨ link.record = .old

/-- The members are the different operands in the order in which they first stand. -/
structure Source.Distinct (members operands : List Source) : Prop where
  /-- A member is an operand, and an operand is a member. -/
  mem_iff : ∀ source, source ∈ members ↔ source ∈ operands
  /-- No two members are equal. -/
  nodup : members.Nodup
  /-- A member in front of another one is the first of the two among the operands. -/
  ordered : members.Pairwise fun first second => operands.idxOf first < operands.idxOf second

/-- The end of a range of numbers that an operand has with an offset. -/
inductive NumericBound.Derived : Source → Float → NumericBound → Prop where
  /-- A number is moved by the offset. -/
  | literal {text : String} {value offset : Float} (h : readNumber text = .ok value) :
    Derived (.literal text) offset (.literal (value + offset))
  /-- The offset of an attribute is kept beside it. -/
  | linked (link : Link) (offset : Float) : Derived (.linked link) offset (.linked link offset)

/-- The end of a range of dates that an operand has. -/
inductive DateBound.Derived (pattern : String) : Source → DateBound → Prop where
  /-- The word for today. -/
  | today : Derived pattern (.literal "TODAY") .today
  /-- The text of a date. -/
  | literal {text : String} {date : Date} (hword : Text.alike text "TODAY" = false)
    (h : readDate text pattern = .ok date) : Derived pattern (.literal text) (.literal date)
  /-- An attribute. -/
  | linked (link : Link) : Derived pattern (.linked link) (.linked link)

/-- The range of a comparison of numbers ends at the operand on the side that the comparison names,
and at the extreme number on the other side. A strict comparison keeps a distance. -/
def Comparison.Spans (epsilon : Float) (operand : Source) (min max : NumericBound) :
    Comparison → Prop
  | .lt => min = .literal leastNumber ∧ max.Derived operand (-epsilon)
  | .gt => min.Derived operand epsilon ∧ max = .literal greatestNumber
  | .le => min = .literal leastNumber ∧ max.Derived operand 0.0
  | .ge => min.Derived operand 0.0 ∧ max = .literal greatestNumber
  | .eq => min.Derived operand 0.0 ∧ max.Derived operand 0.0

/-- The range of a comparison of dates has one end from the operand, and the extreme date is the
other end. -/
def DateComparison.Spans (bound min max : DateBound) : DateComparison → Prop
  | .before => min = .literal Date.first ∧ max = bound
  | .after => min = bound ∧ max = .literal Date.last

/-- The arithmetic of an operator. -/
def BasicOperator.arithmetic? : BasicOperator → Option Arithmetic
  | .assignSum => some .sum
  | .assignDiff => some .diff
  | .assignProd => some .prod
  | .assignQuot => some .quot
  | _ => none

/-- The clause that an operator makes of operands. -/
inductive OperatorToken.Makes (reader : RuleReader) : OperatorToken → List Source → Clause → Prop
    where
  /-- A test that a value is there has no operands. -/
  | populated {operator : BasicOperator} (h : operator.kind = .populated) :
    Makes reader (.basic operator) [] .populated
  /-- A set has the different operands as its members, and there is one at least. -/
  | domain {operator : BasicOperator} {operands members : List Source}
    (h : operator.kind = .domain) (distinct : Source.Distinct members operands)
    (filled : members ≠ []) :
    Makes reader (.basic operator) operands (.domain members (operator == .existsAs))
  /-- The only operand of an assignment is its value. -/
  | assignment {operator : BasicOperator} (h : operator.kind = .assignment) (value : Source) :
    Makes reader (.basic operator) [value] (.assignment value (operator == .default))
  /-- Arithmetic has all operands, and there is one at least. -/
  | arithmetic {operator : BasicOperator} {operation : Arithmetic} {operands : List Source}
    (h : operator.arithmetic? = some operation) (filled : operands ≠ []) :
    Makes reader (.basic operator) operands (.arithmetic operation operands)
  /-- A custom operator has all operands, and there are not too many. -/
  | custom {name : String} {operands : List Source}
    (registered : reader.registry.contains name = true) (few : operands.length ≤ 4) :
    Makes reader (.custom name) operands (.custom name operands)
  /-- The only operand of a limit on numbers ends its range. -/
  | limit {comparison : Comparison} {operand : Source} {min max : NumericBound}
    (spans : comparison.Spans reader.epsilon operand min max) :
    Makes reader (.limit comparison) [operand] (.numericLimit comparison min max)
  /-- The only operand of a limit on dates ends its range, and the mark of today tells that it is
  the word for today. -/
  | date {comparison : DateComparison} {operand : Source} {bound min max : DateBound} {today : Bool}
    (derived : bound.Derived reader.datePattern operand) (spans : comparison.Spans bound min max)
    (marked : today = true ↔ bound = .today) :
    Makes reader (.date comparison) [operand] (.dateLimit comparison min max today)

/-- What holds of the operands and the clause of a rule. -/
structure Rule.WellFormed (reader : RuleReader) (rule : Rule) : Prop where
  /-- The target and every attribute among the operands and in the clause is in the catalog. -/
  listed : ∀ link ∈ rule.links, link.Listed reader.catalog
  /-- The operator is the only phrase of its text that the registry has, and the clause is the one
  that it makes of the operands. -/
  made : ∃ phrase ∈ reader.registry.phrases, phrase.text = rule.operator ∧
    (∀ other ∈ reader.registry.phrases, other.text = rule.operator → other = phrase) ∧
    phrase.token.Makes reader rule.operands rule.clause

/-- The operands without repetition are the different ones in order. -/
theorem Source.distinct_eraseDups (operands : List Source) :
    Distinct operands.eraseDups operands := by
  have hordered : operands.eraseDups.Pairwise fun first second =>
      operands.idxOf first < operands.idxOf second := by
    induction operands using List.reverseRecOn with
    | nil => exact .nil
    | append_singleton before last ih =>
      have hplace : ∀ source ∈ before.eraseDups,
          (before ++ [last]).idxOf source = before.idxOf source := fun source hs =>
        List.idxOf_append_of_mem (List.mem_eraseDups.mp hs)
      have hfront : before.eraseDups.Pairwise fun first second =>
          (before ++ [last]).idxOf first < (before ++ [last]).idxOf second :=
        ih.imp_of_mem fun hfirst hsecond hlt => by rwa [hplace _ hfirst, hplace _ hsecond]
      rw [List.eraseDups_append]
      by_cases hm : last ∈ before
      · simpa [List.removeAll, hm] using hfront
      · have hlast : ([last].removeAll before).eraseDups = [last] := by
          simp [List.removeAll, hm, List.eraseDups_cons]
        rw [hlast]
        refine List.pairwise_append.mpr ⟨hfront, List.pairwise_singleton _ _, ?_⟩
        intro source hs other ho
        rw [List.mem_singleton.mp ho, hplace source hs, List.idxOf_append_of_notMem hm]
        exact Nat.lt_add_right _ (List.idxOf_lt_length_iff.mpr (List.mem_eraseDups.mp hs))
  refine ⟨fun source => List.mem_eraseDups, ?_, hordered⟩
  exact hordered.imp fun hlt heq => absurd (heq ▸ hlt) (lt_irrefl _)

theorem NumericBound.Derived.links_eq {operand : Source} {offset : Float} {bound : NumericBound}
    (h : bound.Derived operand offset) : bound.links = operand.links := by
  cases h <;> rfl

theorem DateBound.Derived.links_eq {pattern : String} {operand : Source} {bound : DateBound}
    (h : bound.Derived pattern operand) : bound.links = operand.links := by
  cases h <;> rfl

/-- The range of a comparison of numbers has no attribute but the operand. -/
theorem Comparison.Spans.links_subset {comparison : Comparison} {epsilon : Float}
    {operand : Source} {min max : NumericBound} (h : comparison.Spans epsilon operand min max) :
    min.links ++ max.links ⊆ operand.links := by
  cases comparison with
  | lt | le =>
    obtain ⟨rfl, hmax⟩ := h
    simp only [NumericBound.links, List.nil_append, ← hmax.links_eq, List.Subset.refl]
  | gt | ge =>
    obtain ⟨hmin, rfl⟩ := h
    simp only [NumericBound.links, List.append_nil, ← hmin.links_eq, List.Subset.refl]
  | eq => simp only [h.1.links_eq, h.2.links_eq, List.append_subset, List.Subset.refl, and_self]

/-- The range of a comparison of dates has no attribute but the bound. -/
theorem DateComparison.Spans.links_subset {comparison : DateComparison}
    {bound min max : DateBound} (h : comparison.Spans bound min max) :
    min.links ++ max.links ⊆ bound.links := by
  cases comparison with
  | before =>
    obtain ⟨rfl, rfl⟩ := h
    exact List.Subset.refl _
  | after =>
    obtain ⟨rfl, rfl⟩ := h
    simp only [DateBound.links, List.append_nil, List.Subset.refl]

/-- Every attribute in a clause is one of the operands. -/
theorem OperatorToken.Makes.links_subset {reader : RuleReader} {token : OperatorToken}
    {operands : List Source} {clause : Clause} (h : token.Makes reader operands clause) :
    clause.links ⊆ operands.flatMap Source.links := by
  cases h with
  | populated | arithmetic | custom => exact List.Subset.refl _
  | assignment _ value => simp only [Clause.links, List.flatMap_singleton, List.Subset.refl]
  | domain _ distinct =>
    intro link hl
    obtain ⟨source, hs, hl⟩ := List.mem_flatMap.mp hl
    exact List.mem_flatMap.mpr ⟨source, (distinct.mem_iff source).mp hs, hl⟩
  | limit spans =>
    rw [List.flatMap_singleton]
    exact spans.links_subset
  | date derived spans =>
    rw [List.flatMap_singleton, ← derived.links_eq]
    exact spans.links_subset

namespace RuleReader

variable {reader : RuleReader} {expression : String}

/-- A reference that is read is listed. -/
theorem listed_of_readLink {text : List Char} {link : Link} (h : reader.readLink text = .ok link) :
    link.Listed reader.catalog := by
  simp only [readLink] at h
  split at h
  · next attr hattr =>
    cases h
    refine ⟨?_, ?_⟩
    · rw [Catalog.name_of_byName? hattr]
      exact hattr
    · simp only [splitReference]
      split
      · exact .inl rfl
      · dsimp only [recordOf]
        split
        · exact .inr rfl
        · exact .inl rfl
  · cases h

/-- An operand that is read names only what is listed. -/
theorem listed_of_readOperand {operand : List Char} {source : Source}
    (h : reader.readOperand expression operand = .ok source) :
    ∀ link ∈ source.links, link.Listed reader.catalog := by
  unfold readOperand at h
  dsimp only at h
  split at h
  · cases h
  · split at h
    · split at h
      · cases h
        exact List.forall_mem_nil _
      · cases h
    · split at h
      · cases h
        exact List.forall_mem_nil _
      · obtain ⟨found, hfound, h⟩ := Refusal.bind_eq_ok h
        cases h
        exact List.forall_mem_singleton.mpr (listed_of_readLink hfound)

/-- Operands that are read name only what is listed. -/
theorem listed_of_readOperands {operands : List (List Char)} {sources : List Source}
    (h : reader.readOperands expression operands = .ok sources) :
    ∀ link ∈ sources.flatMap Source.links, link.Listed reader.catalog := by
  induction operands generalizing sources with
  | nil =>
    cases h
    exact List.forall_mem_nil _
  | cons operand more ih =>
    rw [readOperands, List.mapM_cons] at h
    obtain ⟨first, hfirst, h⟩ := Refusal.bind_eq_ok h
    obtain ⟨later, hlater, h⟩ := Refusal.bind_eq_ok h
    cases h
    rw [List.flatMap_cons]
    exact List.forall_mem_append.mpr ⟨listed_of_readOperand hfirst, ih hlater⟩

/-- The operand of a limit on dates names only what is listed, and the bound comes from it. -/
theorem derived_of_readDateOperand {operand : List Char} {source : Source} {bound : DateBound}
    (h : reader.readDateOperand expression operand = .ok (source, bound)) :
    (∀ link ∈ source.links, link.Listed reader.catalog) ∧
      bound.Derived reader.datePattern source := by
  unfold readDateOperand at h
  dsimp only at h
  split at h
  · cases h
    exact ⟨List.forall_mem_nil _, .today⟩
  · next hword =>
    split at h
    · next date hdate =>
      cases h
      exact ⟨List.forall_mem_nil _, .literal (Bool.eq_false_iff.mpr hword) hdate⟩
    · split at h
      · cases h
      · obtain ⟨found, hfound, h⟩ := Refusal.bind_eq_ok h
        cases h
        exact ⟨List.forall_mem_singleton.mpr (listed_of_readLink hfound), .linked found⟩

variable {operands : List (List Char)} {sources : List Source} {clause : Clause}

/-- A clause that is read is the one that the operator makes of the operands, and these name only
what is listed. -/
structure Sound (reader : RuleReader) (token : OperatorToken) (sources : List Source)
    (clause : Clause) : Prop where
  /-- The operands name only what is listed. -/
  listed : ∀ link ∈ sources.flatMap Source.links, link.Listed reader.catalog
  /-- The clause is that of the operator. -/
  makes : token.Makes reader sources clause

theorem sound_singleton {token : OperatorToken} {source : Source}
    (hlisted : ∀ link ∈ source.links, link.Listed reader.catalog)
    (hmakes : token.Makes reader [source] clause) : reader.Sound token [source] clause :=
  ⟨by rwa [List.flatMap_singleton], hmakes⟩

/-- The members of a set are read soundly. -/
theorem sound_of_readDomain {operator : BasicOperator} (hkind : operator.kind = .domain)
    (h : reader.readDomain expression operands (operator == .existsAs) = .ok (clause, sources)) :
    reader.Sound (.basic operator) sources clause := by
  unfold readDomain at h
  split at h
  · cases h
  · next hne =>
    obtain ⟨read, hread, h⟩ := Refusal.bind_eq_ok h
    cases h
    have hdistinct := Source.distinct_eraseDups sources
    have hsome : sources.eraseDups ≠ [] := by
      obtain ⟨first, hfirst⟩ : ∃ first, first ∈ sources := by
        refine List.exists_mem_of_ne_nil _ fun hnil => hne (List.length_eq_zero_iff.mp ?_)
        rw [← length_of_readOperands hread, hnil, List.length_nil]
      exact List.ne_nil_of_mem ((hdistinct.mem_iff first).mpr hfirst)
    exact ⟨listed_of_readOperands hread, .domain hkind hdistinct hsome⟩

/-- The value of an assignment is read soundly. -/
theorem sound_of_readAssignment {operator : BasicOperator} (hkind : operator.kind = .assignment)
    (h : reader.readAssignment expression operands (operator == .default) =
      .ok (clause, sources)) : reader.Sound (.basic operator) sources clause := by
  obtain ⟨operand, -, h⟩ := Refusal.bind_eq_ok h
  obtain ⟨value, hvalue, h⟩ := Refusal.bind_eq_ok h
  cases h
  exact sound_singleton (listed_of_readOperand hvalue) (.assignment hkind value)

/-- The operands of arithmetic are read soundly. -/
theorem sound_of_readArithmetic {operator : BasicOperator} {operation : Arithmetic}
    (hoperation : operator.arithmetic? = some operation)
    (h : reader.readArithmetic expression operands operation = .ok (clause, sources)) :
    reader.Sound (.basic operator) sources clause := by
  unfold readArithmetic at h
  split at h
  · cases h
  · next hne =>
    obtain ⟨read, hread, h⟩ := Refusal.bind_eq_ok h
    cases h
    refine ⟨listed_of_readOperands hread, .arithmetic hoperation fun hnil => hne ?_⟩
    exact List.length_eq_zero_iff.mp ((length_of_readOperands hread).symm.trans (hnil ▸ rfl))

/-- A bound is derived from its operand. -/
theorem derived_of_numericBound {operand : Source} {offset : Float} {bound : NumericBound}
    (h : numericBound expression operand offset = .ok bound) : bound.Derived operand offset := by
  unfold numericBound at h
  split at h
  · split at h
    · next hvalue =>
      cases h
      exact .literal hvalue
    · cases h
  · cases h
    exact .linked _ offset

/-- A range ends at its operand. -/
theorem spans_of_numericRange {comparison : Comparison} {operand : Source}
    {min max : NumericBound}
    (h : reader.numericRange expression comparison operand = .ok (min, max)) :
    comparison.Spans reader.epsilon operand min max := by
  cases comparison <;> obtain ⟨bound, hbound, h⟩ := Refusal.bind_eq_ok h
  case lt | le =>
    cases h
    exact ⟨rfl, derived_of_numericBound hbound⟩
  case gt | ge =>
    cases h
    exact ⟨derived_of_numericBound hbound, rfl⟩
  case eq =>
    obtain ⟨other, hother, h⟩ := Refusal.bind_eq_ok h
    cases h
    exact ⟨derived_of_numericBound hbound, derived_of_numericBound hother⟩

/-- Every clause is read soundly, one with a custom operator if it is registered. -/
theorem sound_of_readClause {token : OperatorToken}
    (hregistered : ∀ name, token = .custom name → reader.registry.contains name = true)
    (h : reader.readClause expression operands token = .ok (clause, sources)) :
    reader.Sound token sources clause := by
  cases token with
  | custom name =>
    simp only [readClause] at h
    split at h
    · cases h
    · next hcount =>
      obtain ⟨read, hread, h⟩ := Refusal.bind_eq_ok h
      cases h
      refine ⟨listed_of_readOperands hread, .custom (hregistered name rfl) ?_⟩
      exact length_of_readOperands hread ▸ not_lt.mp hcount
  | limit comparison =>
    obtain ⟨_, -, h⟩ := Refusal.bind_eq_ok h
    obtain ⟨operand, hoperand, h⟩ := Refusal.bind_eq_ok h
    obtain ⟨range, hrange, h⟩ := Refusal.bind_eq_ok h
    cases h
    exact sound_singleton (listed_of_readOperand hoperand) (.limit (spans_of_numericRange hrange))
  | date comparison =>
    obtain ⟨_, -, h⟩ := Refusal.bind_eq_ok h
    obtain ⟨⟨operand, bound⟩, hoperand, h⟩ := Refusal.bind_eq_ok h
    cases h
    obtain ⟨hlisted, hderived⟩ := derived_of_readDateOperand hoperand
    refine sound_singleton hlisted (.date hderived ?_ beq_iff_eq)
    cases comparison <;> exact ⟨rfl, rfl⟩
  | basic operator =>
    cases operator with
    | notPopulated | populated =>
      cases h
      exact ⟨List.forall_mem_nil _, .populated rfl⟩
    | notEqual | equal | notIn | isIn | existsAs => exact sound_of_readDomain rfl h
    | default | assign => exact sound_of_readAssignment rfl h
    | assignSum | assignDiff | assignProd | assignQuot => exact sound_of_readArithmetic rfl h

/-- The operator that is found is one of the phrases that the registry has. -/
theorem phrase_of_findOperator? {registry : Registry} {segment : String} {found : FoundOperator}
    (h : findOperator? segment registry.names = some found) :
    ∃ phrase ∈ registry.phrases, phrase.text = found.text ∧ phrase.token = found.token := by
  obtain ⟨phrase, hp, hfound⟩ := List.exists_of_findSome?_eq_some h
  obtain ⟨place, -, rfl⟩ := Option.map_eq_some_iff.mp hfound
  exact ⟨phrase, hp, rfl, rfl⟩

/-- Every rule that is read is well formed. -/
theorem wellFormed_of_read (hbuilt : reader.registry.Built) {id : UInt32} {label : Option String}
    {rule : Rule} (h : reader.read expression id label = .ok rule) : rule.WellFormed reader := by
  obtain ⟨shape, link, found, ⟨clause, sources⟩, -, hlink, -, hfound, hclause, rfl⟩ :=
    shape_of_read h
  have hsound : reader.Sound found.token sources clause :=
    sound_of_readClause (fun name ht => hbuilt.made.contains (mem_of_findOperator? hfound ht))
      hclause
  obtain ⟨phrase, hp, htext, htoken⟩ := phrase_of_findOperator? hfound
  refine ⟨?_, phrase, hp, htext, fun other ho hother => ?_, htoken ▸ hsound.makes⟩
  · refine List.forall_mem_cons.mpr ⟨listed_of_readLink hlink, ?_⟩
    exact List.forall_mem_append.mpr
      ⟨hsound.listed, fun link hl => hsound.listed link (hsound.makes.links_subset hl)⟩
  · exact hbuilt.made.eq_of_text_eq hp ho (hother.trans htext.symm)

/-- A set with a repeated operand is read as a rule with each member once. -/
theorem wellFormed_of_read_repeated :
    let reader : RuleReader := { catalog := .ofList [⟨1, 1, "Owner"⟩, ⟨2, 1, "Fee"⟩] }
    ∃ rule, reader.read "(O.Fee) NOT IN ('x', Owner, 'x')" 1 none = .ok rule ∧
      rule.clause = .domain [.literal "x", .linked ⟨⟨1, 1, "Owner"⟩, .new⟩] false ∧
      rule.WellFormed reader := by
  intro reader
  have hread : reader.read "(O.Fee) NOT IN ('x', Owner, 'x')" 1 none = .ok
      { id := 1, label := none, expression := "(O.Fee) NOT IN ('x', Owner, 'x')",
        operator := "NOT IN", target := ⟨2, 1, "Fee"⟩, record := .old, negated := true,
        operands := [.literal "x", .linked ⟨⟨1, 1, "Owner"⟩, .new⟩, .literal "x"],
        clause := .domain [.literal "x", .linked ⟨⟨1, 1, "Owner"⟩, .new⟩] false } := by
    decide +kernel
  exact ⟨_, hread, rfl, wellFormed_of_read .empty hread⟩

end RuleReader

end Rulebook
