import Rulebook.Proofs.Evaluation.Membership

/-!
# Sets as their members

A rule that looks for its target in a set asks which texts the members stand for. Neither the order
of the members nor their repetition counts, so the rule decides the same with the operands as they
are written, and with every other list of the same sources.
-/

namespace Rulebook

/-- Lists of the same sources stand for the same texts. -/
theorem Records.mem_texts_congr (records : Records) {members others : List Source}
    (h : ∀ source, source ∈ others ↔ source ∈ members) (text : String) :
    text ∈ records.texts others ↔ text ∈ records.texts members := by
  rw [texts, texts, List.mem_flatMap, List.mem_flatMap]
  exact exists_congr fun source => and_congr_left' (h source)

namespace Rule

variable {rule : Rule} {members others : List Source} {allRows : Bool}

/-- The rule with another list of members of its set; a rule that tests no set stays as it is. -/
def withMembers (rule : Rule) (members : List Source) : Rule :=
  match rule.clause with
  | .domain _ allRows => { rule with clause := .domain members allRows }
  | _ => rule

/-- A target is in a set if one of its texts that are looked for is in the texts of the members. -/
theorem isInDomain_iff {records : Records} : rule.isInDomain records members allRows = true ↔
    ∃ text ∈ rule.candidates records allRows, text ∈ records.texts members := by
  simp [isInDomain, Records.texts]

/-- The same sources make the same set, in whichever list they stand. -/
theorem isInDomain_congr (h : ∀ source, source ∈ others ↔ source ∈ members) (records : Records) :
    rule.isInDomain records others allRows = rule.isInDomain records members allRows := by
  rw [Bool.eq_iff_iff, isInDomain_iff, isInDomain_iff]
  exact exists_congr fun text => and_congr_right' (records.mem_texts_congr h text)

/-- With other members a rule still looks for the same texts and negates what it finds alike. -/
theorem execute_withMembers (h : rule.clause = .domain members allRows) (others : List Source)
    (environment : Environment) (records : Records) :
    (rule.withMembers others).execute environment records =
      .ok ({ passed := rule.isInDomain records others allRows != rule.negated }, records) := by
  rw [withMembers, h]
  exact execute_domain rfl environment records

/-- With the same members in another list a rule decides the same. -/
theorem execute_withMembers_congr (hclause : rule.clause = .domain members allRows)
    (h : ∀ source, source ∈ others ↔ source ∈ members) (environment : Environment)
    (records : Records) :
    (rule.withMembers others).execute environment records = rule.execute environment records := by
  rw [execute_withMembers hclause, execute_domain hclause, isInDomain_congr h]

end Rule

namespace RuleReader

variable {reader : RuleReader} {expression : String}

/-- Only the operators of sets make a set, and its members are the different operands. -/
theorem members_of_readClause {operands : List (List Char)} {token : OperatorToken}
    {members sources : List Source} {allRows : Bool}
    (h : reader.readClause expression operands token = .ok (.domain members allRows, sources)) :
    members = sources.eraseDups := by
  have hread : ∀ everywhere, reader.readDomain expression operands everywhere =
      .ok (.domain members allRows, sources) → members = sources.eraseDups := by
    intro everywhere hdomain
    obtain ⟨read, heq, -⟩ := readDomain_cases hdomain
    cases heq
    rfl
  have hkind := kind_of_readClause h
  cases token with
  | custom name => cases hkind
  | limit comparison => cases hkind
  | date comparison => cases hkind
  | basic operator =>
    cases operator with
    | notEqual | equal | notIn | isIn => exact hread false h
    | existsAs => exact hread true h
    | _ => cases hkind

/-- The members of a set that is read are the different operands. -/
theorem members_of_read {id : UInt32} {label : Option String} {rule : Rule} {members : List Source}
    {allRows : Bool} (h : reader.read expression id label = .ok rule)
    (hclause : rule.clause = .domain members allRows) : members = rule.operands.eraseDups := by
  obtain ⟨shape, link, found, ⟨clause, sources⟩, -, -, -, -, hread, rfl⟩ := shape_of_read h
  have heq : clause = .domain members allRows := hclause
  rw [heq] at hread
  exact members_of_readClause hread

/-- A rule that is read with a set has the different operands as its members, and with any other
list of the same sources, the operands as they are written among them, it has the same outcome for
all records: it finds its target if one of the texts that it looks for is among those that the
operands stand for, and it negates what it finds if it is to. -/
theorem execute_of_sameMembers {id : UInt32} {label : Option String} {rule : Rule}
    {members : List Source} {allRows : Bool} (h : reader.read expression id label = .ok rule)
    (hclause : rule.clause = .domain members allRows) :
    members = rule.operands.eraseDups ∧
      (∀ others, (∀ source, source ∈ others ↔ source ∈ members) → ∀ environment records,
        (rule.withMembers others).execute environment records =
          rule.execute environment records) ∧
      ∀ environment records, ∃ found : Bool,
        rule.execute environment records = .ok ({ passed := found != rule.negated }, records) ∧
        (rule.withMembers rule.operands).execute environment records =
          .ok ({ passed := found != rule.negated }, records) ∧
        (found = true ↔ ∃ text ∈ rule.candidates records allRows,
          ∃ source ∈ rule.operands, text ∈ source.values records) := by
  have hmembers := members_of_read h hclause
  have hsame : ∀ source, source ∈ rule.operands ↔ source ∈ members :=
    fun source => hmembers ▸ List.mem_eraseDups.symm
  refine ⟨hmembers, fun others => Rule.execute_withMembers_congr hclause, ?_⟩
  intro environment records
  refine ⟨rule.isInDomain records rule.operands allRows, ?_, ?_, ?_⟩
  · rw [Rule.isInDomain_congr hsame]
    exact rule.execute_domain hclause environment records
  · exact Rule.execute_withMembers hclause rule.operands environment records
  · simp only [Rule.isInDomain_iff, Records.texts, List.mem_flatMap]

/-- A set with a repeated literal and an attribute, with the operands as they are written and in
another order. -/
theorem execute_of_sameMembers_repeated :
    let reader : RuleReader := { catalog := .ofList [⟨1, 1, "Owner"⟩, ⟨2, 1, "Fee"⟩] }
    let owner : Source := .linked ⟨⟨1, 1, "Owner"⟩, .new⟩
    ∃ rule, reader.read "(O.Fee) NOT IN ('x', Owner, 'x')" 1 none = .ok rule ∧
      rule.operands = [.literal "x", owner, .literal "x"] ∧
      rule.clause = .domain [.literal "x", owner] false ∧
      ∀ environment records,
        (rule.withMembers rule.operands).execute environment records =
          rule.execute environment records ∧
        (rule.withMembers [owner, .literal "x", owner]).execute environment records =
          rule.execute environment records := by
  intro reader owner
  have hread : reader.read "(O.Fee) NOT IN ('x', Owner, 'x')" 1 none = .ok
      { id := 1, label := none, expression := "(O.Fee) NOT IN ('x', Owner, 'x')",
        operator := "NOT IN", target := ⟨2, 1, "Fee"⟩, record := .old, negated := true,
        operands := [.literal "x", owner, .literal "x"],
        clause := .domain [.literal "x", owner] false } := by
    decide +kernel
  obtain ⟨-, hothers, -⟩ := execute_of_sameMembers hread rfl
  refine ⟨_, hread, rfl, rfl, fun environment records => ⟨?_, ?_⟩⟩
  · exact hothers _ (fun source => by simp [or_comm, or_left_comm]) environment records
  · exact hothers _ (fun source => by simp [or_comm]) environment records

end RuleReader

end Rulebook
