import Rulebook.Proofs.Expression.Opposite
import Rulebook.Proofs.Expression.Written
import Rulebook.Proofs.Record.Cells

/-!
# Members of a set

A set holds its literals and the texts that its attributes have in all rows; a row without the
attribute adds nothing to it. The target is looked for with the text in its first row, where a
missing attribute reads as empty, or with the texts in all rows that have it. So the search of all
rows overlooks a first row that lacks the attribute if the set holds the empty text, and nothing
else that the first row is found to have.
-/

namespace Rulebook

namespace Records

variable (records : Records)

/-- The texts that the members of a set stand for. -/
def texts (members : List Source) : List String :=
  members.flatMap fun member => member.values records

theorem mem_values {link : Link} {text : String} :
    text ∈ records.values link ↔ some text ∈ records.cells link := by
  simp [values_eq]

theorem values_eq_nil {link : Link} :
    records.values link = [] ↔ ∀ cell ∈ records.cells link, cell = none := by
  simp [values_eq]

theorem value_of_head {link : Link} {text : String}
    (h : (records.cells link).head? = some (some text)) : records.value link = text := by
  rw [value_eq, h]
  rfl

theorem value_of_lacking {link : Link} (h : (records.cells link).head?.join = none) :
    records.value link = "" := by
  rw [value_eq, h]
  rfl

end Records

namespace Rule

variable {rule : Rule} {records : Records} {members : List Source}

/-- The first row is in a set that holds its value. -/
theorem isInDomain_first :
    rule.isInDomain records members false = true ↔
      records.value rule.link ∈ records.texts members := by
  simp [isInDomain, candidates, Records.texts]

/-- Some row is in a set that holds one of the values, or the empty text if there are no values. -/
theorem isInDomain_all :
    rule.isInDomain records members true = true ↔
      (∃ text ∈ records.values rule.link, text ∈ records.texts members) ∨
        records.values rule.link = [] ∧ "" ∈ records.texts members := by
  rw [isInDomain, candidates, if_pos rfl]
  cases records.values rule.link with
  | nil => simp [Records.texts]
  | cons first more => simp [Records.texts]

/-- A test of a set decides its outcome and changes no record. -/
theorem execute_domain {allRows : Bool} (h : rule.clause = .domain members allRows)
    (environment : Environment) (records : Records) : rule.execute environment records =
      .ok ({ passed := rule.isInDomain records members allRows != rule.negated }, records) := by
  simp only [execute, h]
  rfl

end Rule

/-- The first row lacks an attribute that other rows have, and the set holds the empty text, which
the attribute reads as there, but none of the texts of those rows. -/
structure Records.Overlooked (records : Records) (link : Link) (members : List Source) : Prop where
  /-- The first row lacks the attribute. -/
  lacking : (records.cells link).head? = some none
  /-- Some row has the attribute. -/
  found : ∃ text, some text ∈ records.cells link
  /-- The set holds the empty text. -/
  empty : "" ∈ records.texts members
  /-- The set holds none of the texts of the attribute. -/
  apart : ∀ text, some text ∈ records.cells link → text ∉ records.texts members

namespace Rule

variable {rule : Rule} {records : Records} {members : List Source}

/-- The search of all rows misses the first row only where it is overlooked. -/
theorem overlooked_iff :
    rule.isInDomain records members false = true ∧ rule.isInDomain records members true = false ↔
      records.Overlooked rule.link members := by
  rw [← Bool.not_eq_true, isInDomain_first, isInDomain_all]
  constructor
  · rintro ⟨hfirst, hall⟩
    obtain ⟨hsome, hnone⟩ := not_or.mp hall
    have hapart : ∀ text, some text ∈ records.cells rule.link → text ∉ records.texts members :=
      fun text hcell hm => hsome ⟨text, records.mem_values.mpr hcell, hm⟩
    have hlacking : (records.cells rule.link).head?.join = none := by
      cases hcell : (records.cells rule.link).head?.join with
      | none => rfl
      | some text =>
        have hhead := Option.join_eq_some_iff.mp hcell
        rw [records.value_of_head hhead] at hfirst
        exact absurd hfirst (hapart text (List.mem_of_mem_head? hhead))
    rw [records.value_of_lacking hlacking] at hfirst
    have hvalues : records.values rule.link ≠ [] := fun hnil => hnone ⟨hnil, hfirst⟩
    obtain ⟨text, htext⟩ := List.exists_mem_of_ne_nil _ hvalues
    have hfound := records.mem_values.mp htext
    refine ⟨?_, ⟨text, hfound⟩, hfirst, hapart⟩
    cases hcells : records.cells rule.link with
    | nil => simp [hcells] at hfound
    | cons cell more =>
      rw [hcells] at hlacking
      exact congrArg some hlacking
  · rintro ⟨hlacking, ⟨text, hfound⟩, hempty, hapart⟩
    refine ⟨?_, ?_⟩
    · rw [records.value_of_lacking (by rw [hlacking]; rfl)]
      exact hempty
    · rintro (⟨other, hother, hm⟩ | ⟨hnil, -⟩)
      · exact hapart other (records.mem_values.mp hother) hm
      · exact nomatch records.values_eq_nil.mp hnil _ hfound

/-- In a group of at most one row the search of all rows looks at the first row only. -/
theorem isInDomain_of_length_le (h : (records.cells rule.link).length ≤ 1) :
    rule.isInDomain records members true = rule.isInDomain records members false := by
  have hsame : rule.candidates records true = rule.candidates records false := by
    simp only [candidates, if_true, Bool.false_eq_true, if_false, Records.values_eq,
      Records.value_eq]
    cases hcells : records.cells rule.link with
    | nil => rfl
    | cons cell more =>
      have hmore : more = [] := List.length_eq_zero_iff.mp (by simpa [hcells] using h)
      subst hmore
      cases cell <;> rfl
  rw [isInDomain, isInDomain, hsame]

end Rule

/-- A rule that looks for the first row of its target in a set, and one that looks for all rows of
the same target in the same set. -/
structure Rule.Searches (rule searching : Rule) (members : List Source) : Prop where
  /-- Both test the same attribute of the same record. -/
  link : searching.link = rule.link
  /-- The first rule looks for the first row. -/
  first : rule.clause = .domain members false
  /-- The other rule looks for all rows. -/
  all : searching.clause = .domain members true
  /-- What the two find, on any records. -/
  outcomes : ∀ environment records, ∃ found everywhere : Bool,
    rule.execute environment records = .ok ({ passed := found }, records) ∧
      searching.execute environment records = .ok ({ passed := everywhere }, records) ∧
      (found = true ∧ everywhere = false ↔ records.Overlooked rule.link members) ∧
      ((records.cells rule.link).length ≤ 1 → everywhere = found)

/-- Two rules without negation with the clauses of a search. -/
theorem Rule.searches {rule searching : Rule} {members : List Source}
    (hlink : searching.link = rule.link) (hfirst : rule.clause = .domain members false)
    (hall : searching.clause = .domain members true) (hplain : rule.negated = false)
    (hnegated : searching.negated = false) : rule.Searches searching members := by
  refine ⟨hlink, hfirst, hall, fun environment records => ?_⟩
  have hsame : searching.isInDomain records members true =
      rule.isInDomain records members true := by
    simp only [isInDomain, candidates, hlink]
  refine ⟨_, _, rule.execute_domain hfirst environment records,
    searching.execute_domain hall environment records, ?_, fun hone => ?_⟩
  · rw [hplain, hnegated, hsame, Bool.bne_false, Bool.bne_false]
    exact overlooked_iff
  · rw [hplain, hnegated, hsame, isInDomain_of_length_le hone]

namespace RuleReader

variable {reader : RuleReader} {expression : String} {operands : List (List Char)}

/-- A set that is read has members, and it is searched in the same way everywhere. -/
theorem readDomain_cases {allRows : Bool} {reading : Clause × List Source}
    (h : reader.readDomain expression operands allRows = .ok reading) :
    ∃ sources, reading = (.domain sources.eraseDups allRows, sources) ∧
      ∀ everywhere, reader.readDomain expression operands everywhere =
        .ok (.domain sources.eraseDups everywhere, sources) := by
  unfold readDomain at h
  split at h
  · cases h
  · next hne =>
    obtain ⟨sources, hsources, h⟩ := Refusal.bind_eq_ok h
    cases h
    refine ⟨sources, rfl, fun everywhere => ?_⟩
    simp only [readDomain, if_neg hne, hsources]
    rfl

/-- A layout that is read has a target in the catalog and a clause of its operator. -/
theorem layout_of_read (hm : reader.registry.Made) {phrase : Phrase}
    (hp : phrase ∈ reader.registry.phrases) (hopen : ∀ word ∈ phrase.words, '(' ∉ word)
    {layout : Layout phrase} {body : List Char} {id : UInt32} {label : Option String} {rule : Rule}
    (h : reader.read (String.ofList (layout.text body)) id label = .ok rule) :
    ∃ link reading, reader.readLink layout.target = .ok link ∧
      reader.readClause (String.ofList (layout.text body)) (splitOperands body) phrase.token =
        .ok reading ∧ rule = layout.rule body link id label reading := by
  obtain ⟨shape, link, -, -, hshape, hlink, -⟩ := shape_of_read h
  rw [String.toList_ofList, layout.ofText?_text (layout.open_not_mem_operator hopen)] at hshape
  cases hshape
  rw [read_layout hm hp hopen layout hlink] at h
  cases hc : reader.readClause (String.ofList (layout.text body)) (splitOperands body)
      phrase.token with
  | error refusal =>
    rw [hc] at h
    cases h
  | ok reading =>
    rw [hc] at h
    cases h
    exact ⟨link, reading, hlink, rfl, rfl⟩

/-- A layout without `NOT` of an operator that negates nothing is read as a rule without
negation. -/
theorem negated_rule {phrase : Phrase} {layout : Layout phrase} (hphrase : phrase.negated = false)
    (hnone : layout.negation = none) (body : List Char) (link : Link) (id : UInt32)
    (label : Option String) (reading : Clause × List Source) :
    (layout.rule body link id label reading).negated = false := by
  rw [Layout.rule, hphrase, hnone]
  rfl

/-- Where a set is looked for in the first row of a target, the search of all rows is read too. It
misses what the first row has exactly where that row is overlooked, and it finds the same in a group
of at most one row. -/
theorem read_searching (hbuilt : reader.registry.Built) {first : Layout Verb.isIn.phrase}
    {all : Layout Verb.existsAs.phrase} (htarget : all.target = first.target)
    (hfirst : first.negation = none) (hall : all.negation = none) {body : List Char}
    {id : UInt32} {label : Option String} {rule : Rule}
    (h : reader.read (String.ofList (first.text body)) id label = .ok rule) (number : UInt32)
    (name : Option String) :
    ∃ searching members,
      reader.read (String.ofList (all.text body)) number name = .ok searching ∧
        rule.Searches searching members := by
  have hm := hbuilt.made
  have hisIn : Verb.isIn.Fits reader.registry := trivial
  have hexists : Verb.existsAs.Fits reader.registry := trivial
  obtain ⟨link, reading, hlink, hread, rfl⟩ :=
    layout_of_read hm hisIn.mem_phrases (hisIn.open_not_mem hm) h
  obtain ⟨sources, rfl, hevery⟩ := readDomain_cases hread
  have hsearch := reader.carries_readDomain _ (String.ofList (all.text body)) _ _ _ (hevery true)
  rw [← htarget] at hlink
  refine ⟨all.rule body link number name (.domain sources.eraseDups true, sources),
    sources.eraseDups, ?_, Rule.searches rfl rfl rfl (negated_rule rfl hfirst ..)
      (negated_rule rfl hall ..)⟩
  rw [read_layout hm hexists.mem_phrases (hexists.open_not_mem hm) all hlink]
  exact congrArg (Except.map _) hsearch

/-- A rule that looks for a target in a set. -/
def sampleSearch {phrase : Phrase} (operator : Text.Spaced)
    (h : operator.words.map Text.upper = phrase.words) : Layout phrase where
  front := .none
  negation := none
  target := ['N', '.', 'A']
  before := .space
  operator := operator
  behind := .space
  last := .none
  plain := List.all_eq_true.mp (by decide)
  spelled := h

/-- A word for the search in the first row. -/
def sampleFirst : Layout Verb.isIn.phrase :=
  sampleSearch ⟨['I', 'N'], []⟩ (by decide +kernel)

/-- The words for the search in all rows. -/
def sampleAll : Layout Verb.existsAs.phrase :=
  sampleSearch ⟨['E', 'X', 'I', 'S', 'T', 'S'], [(.space, ['A', 'S'])]⟩ (by decide +kernel)

/-- Two searches for the empty text. -/
theorem read_searching_empty :
    let reader : RuleReader := { catalog := .ofList [⟨1, 10, "A"⟩] }
    ∃ rule searching members,
      reader.read "(N.A) IN ('')" 1 none = .ok rule ∧
        reader.read "(N.A) EXISTS AS ('')" 2 none = .ok searching ∧
        rule.Searches searching members := by
  intro reader
  have hfirst : String.ofList (sampleFirst.text ['\'', '\'']) = "(N.A) IN ('')" := by
    decide +kernel
  have hall : String.ofList (sampleAll.text ['\'', '\'']) = "(N.A) EXISTS AS ('')" := by
    decide +kernel
  have hread : reader.read (String.ofList (sampleFirst.text ['\'', '\''])) 1 none = .ok
      { id := 1, label := none, expression := "(N.A) IN ('')", operator := "IN",
        target := ⟨1, 10, "A"⟩, record := .new, negated := false, operands := [.literal ""],
        clause := .domain [.literal ""] false } := by
    rw [hfirst]
    decide +kernel
  have htarget : sampleAll.target = sampleFirst.target := rfl
  obtain ⟨searching, members, hsearching, hsearches⟩ :=
    read_searching .empty htarget rfl rfl hread 2 none
  rw [hfirst] at hread
  rw [hall] at hsearching
  exact ⟨_, searching, members, hread, hsearching, hsearches⟩

/-- The search of all rows does not always find what the first row is found to have: the first of
two rows lacks the attribute, and the set holds the empty text. -/
theorem not_read_searching_always :
    ¬ ∀ (reader : RuleReader) (operands : String) (rule searching : Rule)
      (environment : Environment) (records : Records), reader.registry.Built →
      reader.read ("(N.A) IN (" ++ operands ++ ")") 1 none = .ok rule →
      reader.read ("(N.A) EXISTS AS (" ++ operands ++ ")") 2 none = .ok searching →
      rule.execute environment records = .ok ({ passed := true }, records) →
      searching.execute environment records = .ok ({ passed := true }, records) := by
  intro h
  let rule : Rule :=
    { id := 1, label := none, expression := "(N.A) IN ('')", operator := "IN",
      target := ⟨1, 10, "A"⟩, record := .new, negated := false, operands := [.literal ""],
      clause := .domain [.literal ""] false }
  let searching : Rule :=
    { rule with id := 2, expression := "(N.A) EXISTS AS ('')", operator := "EXISTS AS",
                clause := .domain [.literal ""] true }
  let records : Records :=
    { new := (Record.empty.pushRow 10 Table.empty).pushRow 10 (Table.empty.insert 1 "Loan") }
  let environment : Environment :=
    { today := ⟨2024, 3, 1, by decide, by decide, by decide, by decide⟩ }
  have hpassed := h { catalog := .ofList [⟨1, 10, "A"⟩] } "''" rule searching environment records
    .empty (by decide +kernel) (by decide +kernel) rfl
  exact absurd hpassed (by decide +kernel)

end RuleReader

end Rulebook
