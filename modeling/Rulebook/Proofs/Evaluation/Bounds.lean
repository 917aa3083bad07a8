import Rulebook.Evaluation.Execution
import Rulebook.Proofs.Expression.Bounds
import Rulebook.Proofs.Expression.Layout

/-!
# Bounds of literals, attributes and today

A limit whose bound is a literal, one whose bound is an attribute that holds the text of the
literal, and, for dates, one whose bound is today on the day that the literal means: all of them
have the same outcome on the same records, for each comparison and each sign. The literal is folded
into the range when the rule is read, the others are found when it runs, with the same offset.
-/

namespace Rulebook

/-- Two rules test the same target with the same sign. -/
structure Rule.Akin (rule other : Rule) : Prop where
  /-- They have the same number. -/
  id : rule.id = other.id
  /-- They test the same attribute of the same record. -/
  link : rule.link = other.link
  /-- They have the same sign. -/
  negated : rule.negated = other.negated

namespace Rule

variable {rule other : Rule} {environment : Environment} {records : Records}

/-- Akin rules decide the same result in the same way. -/
theorem Akin.checked (h : rule.Akin other) (result : Except CoercionFault Bool) :
    rule.checked result = other.checked result := by
  cases result with
  | ok holds => simp only [Rule.checked, decided, h.negated]
  | error fault => simp only [Rule.checked, failed, h.id]

/-- Akin limits on numbers have the same outcome if their ranges have the same values. -/
theorem Akin.execute_numericLimit (h : rule.Akin other)
    {comparison : Comparison} {min max first last : NumericBound}
    (hrule : rule.clause = .numericLimit comparison min max)
    (hother : other.clause = .numericLimit comparison first last)
    (hmin : min.value records = first.value records)
    (hmax : max.value records = last.value records) :
    rule.execute environment records = other.execute environment records := by
  have hrange : rule.isInRange records min max = other.isInRange records first last := by
    simp only [isInRange, hmin, hmax, h.link]
  simp only [execute, hrule, hother, hrange, h.checked]

/-- Akin limits on dates have the same outcome if their ranges have the same values. -/
theorem Akin.execute_dateLimit (h : rule.Akin other)
    {comparison : DateComparison} {min max first last : DateBound} {today also : Bool}
    (hrule : rule.clause = .dateLimit comparison min max today)
    (hother : other.clause = .dateLimit comparison first last also)
    (hmin : min.value records environment = first.value records environment)
    (hmax : max.value records environment = last.value records environment) :
    rule.execute environment records = other.execute environment records := by
  have hrange : rule.isBetween records environment min max =
      other.isBetween records environment first last := by
    simp only [isBetween, hmin, hmax, h.link]
  simp only [execute, hrule, hother, hrange, h.checked]

/-- Akin limits on numbers have the same outcome if their bounds have the same values. -/
theorem Akin.execute_limitClause (h : rule.Akin other) {reader : RuleReader}
    {comparison : Comparison} {bound another : Float → NumericBound}
    (hrule : rule.clause = reader.limitClause comparison bound)
    (hother : other.clause = reader.limitClause comparison another)
    (hbound : ∀ offset, (bound offset).value records = (another offset).value records) :
    rule.execute environment records = other.execute environment records := by
  refine h.execute_numericLimit hrule hother ?_ ?_
  · cases comparison with
    | lt | le => rfl
    | gt | ge | eq => exact hbound _
  · cases comparison with
    | gt | ge => rfl
    | lt | le | eq => exact hbound _

/-- Akin limits on dates have the same outcome if their bounds have the same values. -/
theorem Akin.execute_dateClause (h : rule.Akin other) {comparison : DateComparison}
    {bound another : DateBound} (hrule : rule.clause = RuleReader.dateClause comparison bound)
    (hother : other.clause = RuleReader.dateClause comparison another)
    (hbound : bound.value records environment = another.value records environment) :
    rule.execute environment records = other.execute environment records := by
  refine h.execute_dateLimit hrule hother ?_ ?_
  · cases comparison with
    | before => rfl
    | after => exact hbound
  · cases comparison with
    | before => exact hbound
    | after => rfl

end Rule

/-- The text is one that a limit takes as the literal for its bound. -/
def Verbatim.Accepted (verbatim : Verbatim) (reader : RuleReader) : OperatorToken → Prop
  | .limit _ => ∃ value, readNumber verbatim.content = .ok value
  | .date _ => ∃ date, readDate verbatim.content reader.datePattern = .ok date
  | _ => False

/-- Rules of one layout are akin. -/
theorem Layout.akin {phrase : Phrase} (layout : Layout phrase) (body other : List Char)
    (link : Link) (id : UInt32) (label : Option String) (reading another : Clause × List Source) :
    (layout.rule body link id label reading).Akin (layout.rule other link id label another) where
  id := by simp only [rule]
  link := by simp only [Rule.link, rule]
  negated := by simp only [rule]

/-- What a literal, an attribute and today have in common as bounds of a limit. -/
structure Interchangeable (reader : RuleReader) {phrase : Phrase} (layout : Layout phrase)
    (literal : Verbatim) (id : UInt32) (label : Option String) (rule : Rule) : Prop where
  /-- The rule with the literal has the outcome of each rule with an attribute that holds the text
  of the literal. -/
  linked : ∀ body linked source,
    reader.read (String.ofList (layout.text body)) id label = .ok linked →
    linked.operands = [.linked source] →
    ∀ environment records, environment.datePattern = reader.datePattern →
      records.value source = literal.content →
      linked.execute environment records = rule.execute environment records
  /-- On the day that the literal means, the rule with the word for today is read and has the
  outcome of the rule with the literal. -/
  today : ∀ date, phrase ∈ Phrase.dates →
    readDate literal.content reader.datePattern = .ok date →
    ∀ word : Verbatim, Text.alike (Text.trimmed word.content) "TODAY" = true →
      ∃ current, reader.read (String.ofList (layout.text word.text)) id label = .ok current ∧
        ∀ environment records, environment.today = date →
          current.execute environment records = rule.execute environment records

namespace RuleReader

variable {reader : RuleReader}

/-- No limit holds an opening parenthesis. -/
theorem open_not_mem_limits {phrase : Phrase} (hp : phrase ∈ Phrase.limits ++ Phrase.dates) :
    ∀ word ∈ phrase.words, '(' ∉ word := by
  have hall : ∀ phrase ∈ Phrase.limits ++ Phrase.dates, ∀ word ∈ phrase.words, '(' ∉ word := by
    decide +kernel
  exact hall phrase hp

/-- A limit on dates has the token of one. -/
theorem token_of_mem_dates {phrase : Phrase} (hp : phrase ∈ Phrase.dates) :
    ∃ comparison, phrase.token = .date comparison := by
  simp only [Phrase.dates, List.mem_cons, List.not_mem_nil, or_false] at hp
  rcases hp with rfl | rfl | rfl | rfl <;> exact ⟨_, rfl⟩

section

variable {phrase : Phrase} {layout : Layout phrase} {link : Link} {id : UInt32}
  {label : Option String}

/-- Reading the layout is reading the clause of its operator. -/
def Reads (reader : RuleReader) (layout : Layout phrase) (link : Link) (id : UInt32)
    (label : Option String) : Prop :=
  ∀ body, reader.read (String.ofList (layout.text body)) id label =
    (reader.readClause (String.ofList (layout.text body)) (splitOperands body) phrase.token).map
      (layout.rule body link id label)

/-- A rule of the layout with an attribute as its operand has a clause with this operand. -/
theorem Reads.clause_of_linked (h : reader.Reads layout link id label) {body : List Char}
    {linked : Rule} {source : Link}
    (hlinked : reader.read (String.ofList (layout.text body)) id label = .ok linked)
    (hoperands : linked.operands = [.linked source]) :
    ∃ clause, reader.readClause (String.ofList (layout.text body)) (splitOperands body)
        phrase.token = .ok (clause, [.linked source]) ∧
      linked = layout.rule body link id label (clause, [.linked source]) := by
  rw [h body] at hlinked
  cases hc : reader.readClause (String.ofList (layout.text body)) (splitOperands body)
      phrase.token with
  | error refusal =>
    rw [hc] at hlinked
    cases hlinked
  | ok reading =>
    rw [hc] at hlinked
    cases hlinked
    obtain ⟨clause, sources⟩ := reading
    cases hoperands
    exact ⟨clause, rfl, rfl⟩

/-- A clause that is read makes a rule of the layout. -/
theorem Reads.read_eq_ok (h : reader.Reads layout link id label) {body : List Char}
    {reading : Clause × List Source}
    (hclause : reader.readClause (String.ofList (layout.text body)) (splitOperands body)
      phrase.token = .ok reading) :
    reader.read (String.ofList (layout.text body)) id label =
      .ok (layout.rule body link id label reading) := by
  rw [h body, hclause]
  rfl

/-- A limit on numbers with a literal is read, and the literal can be exchanged. -/
theorem Reads.interchangeable_number (h : reader.Reads layout link id label)
    {comparison : Comparison} (ht : phrase.token = .limit comparison) {literal : Verbatim}
    {value : Float} (hvalue : readNumber literal.content = .ok value) :
    ∃ rule, reader.read (String.ofList (layout.text literal.text)) id label = .ok rule ∧
      (∃ text, rule.operands = [.literal text]) ∧
      Interchangeable reader layout literal id label rule := by
  obtain ⟨text, -, hclause⟩ := readClause_number reader
    (String.ofList (layout.text literal.text)) comparison hvalue
  rw [← ht] at hclause
  refine ⟨_, h.read_eq_ok hclause, ⟨text, rfl⟩, ?_, fun date hdates => ?_⟩
  · intro body linked source hlinked hoperands environment records _ hsource
    obtain ⟨clause, hreading, rfl⟩ := h.clause_of_linked hlinked hoperands
    rw [ht] at hreading
    refine (layout.akin ..).execute_limitClause (clause_of_linked_number hreading) rfl
      fun offset => ?_
    simp only [NumericBound.value, hsource, hvalue]
    rfl
  · obtain ⟨other, hother⟩ := token_of_mem_dates hdates
    rw [ht] at hother
    cases hother

/-- A limit on dates with a literal is read, and the literal can be exchanged. -/
theorem Reads.interchangeable_date (h : reader.Reads layout link id label)
    {comparison : DateComparison} (ht : phrase.token = .date comparison) {literal : Verbatim}
    {date : Calendar.Date} (hdate : readDate literal.content reader.datePattern = .ok date) :
    ∃ rule, reader.read (String.ofList (layout.text literal.text)) id label = .ok rule ∧
      (∃ text, rule.operands = [.literal text]) ∧
      Interchangeable reader layout literal id label rule := by
  have hclause := readClause_date (String.ofList (layout.text literal.text)) comparison hdate
  rw [← ht] at hclause
  refine ⟨_, h.read_eq_ok hclause, ⟨_, rfl⟩, ?_, ?_⟩
  · intro body linked source hlinked hoperands environment records hpattern hsource
    obtain ⟨clause, hreading, rfl⟩ := h.clause_of_linked hlinked hoperands
    rw [ht] at hreading
    refine (layout.akin ..).execute_dateClause (clause_of_linked_date hreading) rfl ?_
    simp only [DateBound.value, hsource, hpattern, hdate]
  · intro other hdates hother word hword
    have hcurrent := readClause_today reader (String.ofList (layout.text word.text)) comparison
      hword
    rw [← ht] at hcurrent
    refine ⟨_, h.read_eq_ok hcurrent, fun environment records htoday => ?_⟩
    refine (layout.akin ..).execute_dateClause rfl rfl ?_
    rw [hdate] at hother
    cases hother
    rw [DateBound.value, DateBound.value, htoday]

end

/-- A limit with a literal as its bound is read, and it has the outcome of the limits with an
attribute or today in the place of the literal. -/
theorem read_interchangeable (hbuilt : reader.registry.Built) {phrase : Phrase}
    (hp : phrase ∈ Phrase.limits ++ Phrase.dates) (layout : Layout phrase) {link : Link}
    (hlink : reader.readLink layout.target = .ok link) (literal : Verbatim)
    (haccepted : literal.Accepted reader phrase.token) (id : UInt32) (label : Option String) :
    ∃ rule, reader.read (String.ofList (layout.text literal.text)) id label = .ok rule ∧
      (∃ text, rule.operands = [.literal text]) ∧
      Interchangeable reader layout literal id label rule := by
  have hreads : reader.Reads layout link id label := fun body => read_layout hbuilt.made
    (List.mem_append_right _ (List.mem_append_left _ hp)) (open_not_mem_limits hp) layout hlink
    body id label
  cases ht : phrase.token with
  | limit comparison =>
    rw [ht] at haccepted
    obtain ⟨value, hvalue⟩ := haccepted
    exact hreads.interchangeable_number ht hvalue
  | date comparison =>
    rw [ht] at haccepted
    obtain ⟨date, hdate⟩ := haccepted
    exact hreads.interchangeable_date ht hdate
  | custom name =>
    rw [ht] at haccepted
    exact haccepted.elim
  | basic operator =>
    rw [ht] at haccepted
    exact haccepted.elim

/-- A limit that is laid out with blanks between its words. -/
def sampleLayout : Layout ⟨"IS NOT BEFORE", .date .before, true⟩ where
  front := .none
  negation := none
  target := ['N', '.', 'D', 'u', 'e']
  before := .space
  operator := ⟨['i', 's'], [(.tab, ['n', 'o', 't']),
    (.space, ['b', 'e', 'f', 'o', 'r', 'e'])]⟩
  behind := .none
  last := .none
  plain := List.all_eq_true.mp (by decide)
  spelled := by decide +kernel

/-- The first of March as a quoted literal. -/
def sampleLiteral : Verbatim where
  front := .none
  quotes := true
  content := "03/01/2024"
  back := .none
  single := by decide
  bare := fun h => nomatch h

/-- The word for today without quotes. -/
def sampleToday : Verbatim where
  front := .none
  quotes := false
  content := "Today"
  back := .none
  single := by decide
  bare := fun _ => by decide

/-- On the first of March three ways to write one limit have the same outcome. -/
theorem read_interchangeable_march :
    let reader : RuleReader := { catalog := .ofList [⟨1, 1, "Due"⟩] }
    let environment : Environment :=
      { today := ⟨2024, 3, 1, by decide, by decide, by decide, by decide⟩ }
    let records : Records := { old := Record.empty.setValue ⟨1, 1, "Due"⟩ "03/01/2024" }
    ∃ literal linked current : Rule,
      reader.read "(N.Due) is\tnot before('03/01/2024')" 1 none = .ok literal ∧
        reader.read "(N.Due) is\tnot before(O.Due)" 1 none = .ok linked ∧
        reader.read "(N.Due) is\tnot before(Today)" 1 none = .ok current ∧
        linked.execute environment records = literal.execute environment records ∧
        current.execute environment records = literal.execute environment records := by
  intro reader environment records
  have hliteral : String.ofList (sampleLayout.text sampleLiteral.text) =
      "(N.Due) is\tnot before('03/01/2024')" := by decide +kernel
  have htoday : String.ofList (sampleLayout.text sampleToday.text) =
      "(N.Due) is\tnot before(Today)" := by decide +kernel
  have hdate : readDate "03/01/2024" "%m/%d/%Y" = .ok environment.today := by decide +kernel
  have hlinked : reader.read (String.ofList (sampleLayout.text ['O', '.', 'D', 'u', 'e'])) 1 none =
      .ok { id := 1, label := none, expression := "(N.Due) is\tnot before(O.Due)",
            operator := "IS NOT BEFORE", target := ⟨1, 1, "Due"⟩, record := .new, negated := true,
            operands := [.linked ⟨⟨1, 1, "Due"⟩, .old⟩],
            clause := .dateLimit .before (.literal .first) (.linked ⟨⟨1, 1, "Due"⟩, .old⟩)
              false } := by
    decide +kernel
  have hbuilt : reader.registry.Built := .empty
  have htarget : reader.readLink sampleLayout.target = .ok ⟨⟨1, 1, "Due"⟩, .new⟩ := by
    decide +kernel
  obtain ⟨literal, hread, -, hsame⟩ :=
    read_interchangeable hbuilt (by decide) sampleLayout htarget sampleLiteral ⟨_, hdate⟩ 1 none
  obtain ⟨current, hcurrent, houtcome⟩ :=
    hsame.today _ (by decide) hdate sampleToday (by decide +kernel)
  have hsource : records.value ⟨⟨1, 1, "Due"⟩, .old⟩ = sampleLiteral.content := by decide +kernel
  have hboth := hsame.linked _ _ _ hlinked rfl environment records rfl hsource
  rw [hliteral] at hread
  rw [htoday] at hcurrent
  exact ⟨literal, _, current, hread, hlinked, hcurrent, hboth, houtcome environment records rfl⟩

end RuleReader

end Rulebook
