import Rulebook.Proofs.Evaluation.Membership

/-!
# Unchanged values

A rule that compares an attribute across the two records looks for the value in the first row of the
new record among the values in all rows of the old one. A row without the attribute adds no value,
while the first row reads as empty without it. So an attribute is equal to itself where the first
row of the old record has it, and where it reads as empty only if some row has it with that text.
-/

namespace Rulebook

/-- A rule without `NOT` compares an attribute of the new record with the same one of the old
record. -/
structure Written.Compares (written : Written) (attr : Attribute) (verb : Verb) : Prop where
  /-- The operator. -/
  verb : written.verb = verb
  /-- The target is the attribute in the new record. -/
  target : written.target.link = ⟨attr, .new⟩
  /-- The only operand is the attribute in the old record. -/
  operand : ∃ mention : Mention,
    written.operands = [.named mention] ∧ mention.link = ⟨attr, .old⟩
  /-- No `NOT` stands in front. -/
  negation : written.negation = none

namespace Written

variable {written : Written} {attr : Attribute} {verb : Verb} {reader : RuleReader}

/-- What the rule of a comparison tests. -/
theorem Compares.rule_eq (h : written.Compares attr verb) (hverb : verb = .equal ∨ verb = .notEqual)
    (id : UInt32) (label : Option String) :
    (written.rule id label).link = ⟨attr, .new⟩ ∧
      (written.rule id label).clause = .domain [.linked ⟨attr, .old⟩] false ∧
      (written.rule id label).negated = verb.phrase.negated := by
  obtain ⟨mention, hoperands, hmention⟩ := h.operand
  have hclause : verb.clause? [.linked ⟨attr, .old⟩] = some written.clause := by
    have hadmitted := written.admitted
    rw [h.verb, hoperands] at hadmitted
    rw [← hadmitted, ← hmention]
    rfl
  refine ⟨h.target, ?_, ?_⟩
  · have hdomain : verb.clause? [.linked ⟨attr, .old⟩] =
        some (.domain [.linked ⟨attr, .old⟩] false) := by
      rcases hverb with rfl | rfl <;> rfl
    exact Option.some.inj (hclause.symm.trans hdomain)
  · rw [rule, h.negation, h.verb]
    exact Bool.or_false _

/-- A comparison of a known attribute is read. -/
theorem Compares.fits (h : written.Compares attr verb) (hverb : verb = .equal ∨ verb = .notEqual)
    (hknown : reader.catalog.byName? attr.name = some attr) (hcomma : ',' ∉ attr.name.toList) :
    written.Fits reader := by
  obtain ⟨mention, hoperands, hmention⟩ := h.operand
  have htarget : written.target.attr = attr := congrArg Link.attr h.target
  have hattr : mention.attr = attr := congrArg Link.attr hmention
  refine ⟨?_, ?_, fun operand ho => ?_⟩
  · rw [Mention.Known, htarget]
    exact hknown
  · rw [h.verb]
    rcases hverb with rfl | rfl <;> trivial
  · rw [hoperands, List.mem_singleton] at ho
    subst ho
    rw [Operand.Fits, Mention.Known, hattr]
    exact ⟨hknown, hcomma⟩

/-- A comparison passes if the value in the new record is one of those in the old record, or if it
is none of them, as its operator says. -/
theorem Compares.execute (h : written.Compares attr verb) (hverb : verb = .equal ∨ verb = .notEqual)
    (id : UInt32) (label : Option String) (environment : Environment) (records : Records) :
    (written.rule id label).execute environment records =
      .ok
        ({ passed :=
            decide (some (records.value ⟨attr, .new⟩) ∈ records.cells ⟨attr, .old⟩) !=
              verb.phrase.negated },
          records) := by
  obtain ⟨hlink, hclause, hnegated⟩ := h.rule_eq hverb id label
  have hfound : (written.rule id label).isInDomain records [.linked ⟨attr, .old⟩] false =
      decide (some (records.value ⟨attr, .new⟩) ∈ records.cells ⟨attr, .old⟩) := by
    rw [Bool.eq_iff_iff, Rule.isInDomain_first, hlink, decide_eq_true_eq, ← Records.mem_values]
    simp [Records.texts, Source.values]
  rw [Rule.execute_domain hclause, hfound, hnegated]

end Written

/-- Some row of the old record stands for the value that its first row is read as: the first row has
the attribute, or it lacks it and another row has it with an empty text. -/
def Records.Kept (records : Records) (attr : Attribute) : Prop :=
  (records.cells ⟨attr, .old⟩).head?.join ≠ none ∨ some "" ∈ records.cells ⟨attr, .old⟩

/-- The value of the first row is one of the values of all rows if some row stands for it. -/
theorem Records.kept_iff {records : Records} {attr : Attribute} :
    records.Kept attr ↔
      some (records.value ⟨attr, .old⟩) ∈ records.cells ⟨attr, .old⟩ := by
  rw [Kept]
  cases hcell : (records.cells ⟨attr, .old⟩).head?.join with
  | none => simp [records.value_of_lacking hcell]
  | some text =>
    have hhead := Option.join_eq_some_iff.mp hcell
    simp [records.value_of_head hhead, List.mem_of_mem_head? hhead]

/-- The verdicts of two rules that compare an attribute whose value has not changed. -/
structure Rule.Settled (same differs : Rule) (environment : Environment) (records : Records)
    (attr : Attribute) : Prop where
  /-- Where some row of the old record stands for the value, the attribute is equal to itself. -/
  kept : records.Kept attr →
    same.execute environment records = .ok ({ passed := true }, records) ∧
      differs.execute environment records = .ok ({ passed := false }, records)
  /-- Where no row does, it counts as changed. -/
  lost : ¬ records.Kept attr →
    same.execute environment records = .ok ({ passed := false }, records) ∧
      differs.execute environment records = .ok ({ passed := true }, records)

namespace RuleReader

variable {reader : RuleReader}

/-- Two comparisons of an attribute across the records are read. On records in which its value is
the same, the attribute is equal to itself, and not unequal, exactly if some row of the old record
stands for its value. -/
theorem read_unchanged (hbuilt : reader.registry.Built) {attr : Attribute}
    (hknown : reader.catalog.byName? attr.name = some attr) (hcomma : ',' ∉ attr.name.toList)
    {equal unequal : Written} (hequal : equal.Compares attr .equal)
    (hunequal : unequal.Compares attr .notEqual) (id number : UInt32) (label name : Option String) :
    ∃ same differs, reader.read equal.text id label = .ok same ∧
      reader.read unequal.text number name = .ok differs ∧
      ∀ environment records, records.value ⟨attr, .new⟩ = records.value ⟨attr, .old⟩ →
        same.Settled differs environment records attr := by
  refine ⟨_, _, equal.read_of_made hbuilt.made (hequal.fits (.inl rfl) hknown hcomma) id label,
    unequal.read_of_made hbuilt.made (hunequal.fits (.inr rfl) hknown hcomma) number name,
    fun environment records hvalue => ?_⟩
  have hsame := hequal.execute (.inl rfl) id label environment records
  have hdiffers := hunequal.execute (.inr rfl) number name environment records
  rw [hvalue] at hsame hdiffers
  constructor
  · intro hkept
    rw [hsame, hdiffers, decide_eq_true (Records.kept_iff.mp hkept)]
    exact ⟨rfl, rfl⟩
  · intro hlost
    rw [hsame, hdiffers, decide_eq_false (mt Records.kept_iff.mpr hlost)]
    exact ⟨rfl, rfl⟩

/-- The type of an account in one of the records. -/
def sampleMention (letter : Char) (record : Selector) (h : (letter, record) ∈ recordLetters) :
    Mention where
  letter := letter
  record := record
  attr := ⟨1, 10, "AccountType"⟩
  selects := h
  bare := by decide +kernel

theorem mem_recordLetters_new : ('N', Selector.new) ∈ recordLetters := by decide

theorem mem_recordLetters_old : ('O', Selector.old) ∈ recordLetters := by decide

/-- A comparison of the types of an account. -/
def sampleComparison (verb : Verb) (operator : Text.Spaced)
    (hs : operator.words.map Text.upper = verb.phrase.words)
    (ha : verb.clause? [.linked ⟨⟨1, 10, "AccountType"⟩, .old⟩] =
      some (.domain [.linked ⟨⟨1, 10, "AccountType"⟩, .old⟩] false)) : Written where
  front := .none
  negation := none
  target := sampleMention 'N' .new mem_recordLetters_new
  before := .space
  verb := verb
  operator := operator
  behind := .space
  operands := [.named (sampleMention 'O' .old mem_recordLetters_old)]
  hollow := .none
  last := .none
  clause := .domain [.linked ⟨⟨1, 10, "AccountType"⟩, .old⟩] false
  plain := by decide +kernel
  spelled := hs
  admitted := ha

/-- The type of an account is the same. -/
def sampleEqual : Written :=
  sampleComparison .equal ⟨['=', '='], []⟩ (by decide +kernel) (by decide +kernel)

/-- The type of an account is another one. -/
def sampleUnequal : Written :=
  sampleComparison .notEqual ⟨['!', '='], []⟩ (by decide +kernel) (by decide +kernel)

/-- A type of an account that is the same in both records. -/
theorem read_unchanged_loan :
    let reader : RuleReader := { catalog := .ofList [⟨1, 10, "AccountType"⟩] }
    let environment : Environment :=
      { today := ⟨2024, 3, 1, by decide, by decide, by decide, by decide⟩ }
    let records : Records :=
      { new := Record.empty.setValue ⟨1, 10, "AccountType"⟩ "Loan"
        old := Record.empty.setValue ⟨1, 10, "AccountType"⟩ "Loan" }
    ∃ same differs,
      reader.read "(N.AccountType) == (O.AccountType)" 1 none = .ok same ∧
        reader.read "(N.AccountType) != (O.AccountType)" 2 none = .ok differs ∧
        records.Kept ⟨1, 10, "AccountType"⟩ ∧
        same.execute environment records = .ok ({ passed := true }, records) ∧
        differs.execute environment records = .ok ({ passed := false }, records) := by
  intro reader environment records
  have hequal : sampleEqual.text = "(N.AccountType) == (O.AccountType)" := by decide +kernel
  have hunequal : sampleUnequal.text = "(N.AccountType) != (O.AccountType)" := by decide +kernel
  have hbuilt : reader.registry.Built := .empty
  have hcompares : sampleEqual.Compares ⟨1, 10, "AccountType"⟩ .equal :=
    ⟨rfl, rfl, ⟨_, rfl, rfl⟩, rfl⟩
  have hopposes : sampleUnequal.Compares ⟨1, 10, "AccountType"⟩ .notEqual :=
    ⟨rfl, rfl, ⟨_, rfl, rfl⟩, rfl⟩
  obtain ⟨same, differs, hsame, hdiffers, hsettled⟩ :=
    read_unchanged hbuilt (by decide +kernel) (by decide +kernel) hcompares hopposes 1 2 none none
  have hkept : records.Kept ⟨1, 10, "AccountType"⟩ := .inl (by decide +kernel)
  rw [hequal] at hsame
  rw [hunequal] at hdiffers
  exact ⟨same, differs, hsame, hdiffers, hkept,
    (hsettled environment records (by decide +kernel)).kept hkept⟩

/-- An attribute is not always equal to itself: both records are empty, so that it reads as empty in
both of them and has no value in the old one. -/
theorem not_read_unchanged_always :
    ¬ ∀ (reader : RuleReader) (attr : Attribute) (same differs : Rule) (environment : Environment)
      (records : Records), reader.registry.Built →
      reader.catalog.byName? attr.name = some attr →
      reader.read ("(N." ++ attr.name ++ ") == (O." ++ attr.name ++ ")") 1 none = .ok same →
      reader.read ("(N." ++ attr.name ++ ") != (O." ++ attr.name ++ ")") 2 none = .ok differs →
      records.value ⟨attr, .new⟩ = records.value ⟨attr, .old⟩ →
      same.execute environment records = .ok ({ passed := true }, records) ∧
        differs.execute environment records = .ok ({ passed := false }, records) := by
  intro h
  let attr : Attribute := ⟨1, 10, "AccountType"⟩
  let same : Rule :=
    { id := 1, label := none, expression := "(N.AccountType) == (O.AccountType)",
      operator := "==", target := attr, record := .new, negated := false,
      operands := [.linked ⟨attr, .old⟩], clause := .domain [.linked ⟨attr, .old⟩] false }
  let differs : Rule :=
    { same with id := 2, expression := "(N.AccountType) != (O.AccountType)",
                operator := "!=", negated := true }
  let environment : Environment :=
    { today := ⟨2024, 3, 1, by decide, by decide, by decide, by decide⟩ }
  have hsame := (h { catalog := .ofList [attr] } attr same differs environment {} .empty
    (by decide +kernel) (by decide +kernel) (by decide +kernel) rfl).1
  exact absurd hsame (by decide +kernel)

end RuleReader

end Rulebook
