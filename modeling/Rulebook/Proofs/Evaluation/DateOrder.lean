import Rulebook.Proofs.Calendar.Range
import Rulebook.Proofs.Evaluation.Bounds
import Rulebook.Proofs.Evaluation.Membership

/-!
# Limits on dates and the order of dates

A limit on dates is a range with the extreme date of the calendar at its open end, and neither end
belongs to the range. So a limit follows the order of dates but for the extreme date itself: the
first day is before no date by these limits, and the last day is after none. For every other date
exactly one of the two limits holds, or the date is the bound.
-/

namespace Rulebook

open Calendar (Date)

namespace DateComparison

/-- A date lies between the bound and the open end. -/
def holds (comparison : DateComparison) (date bound : Date) : Bool :=
  match comparison with
  | .before => decide (Date.first < date) && decide (date < bound)
  | .after => decide (bound < date) && decide (date < Date.last)

variable {date bound : Date}

/-- A date is before the bound unless it is the first one. -/
theorem holds_before : holds .before date bound = true ↔ date < bound ∧ date ≠ Date.first := by
  rw [holds, Bool.and_eq_true, decide_eq_true_iff, decide_eq_true_iff, Date.first_lt_iff, and_comm]

/-- A date is after the bound unless it is the last one. -/
theorem holds_after : holds .after date bound = true ↔ bound < date ∧ date ≠ Date.last := by
  rw [holds, Bool.and_eq_true, decide_eq_true_iff, decide_eq_true_iff, Date.lt_last_iff]

/-- A date is before the bound, after it or the bound itself, and only one of the three; an extreme
date that is not the bound is none of them. -/
theorem count_holds (date bound : Date) :
    [holds .before date bound, holds .after date bound, date == bound].count true =
      if (date = Date.first ∨ date = Date.last) ∧ date ≠ bound then 0 else 1 := by
  have hbefore : holds .before date bound = decide (date < bound ∧ date ≠ Date.first) := by
    rw [Bool.eq_iff_iff, holds_before, decide_eq_true_iff]
  have hafter : holds .after date bound = decide (bound < date ∧ date ≠ Date.last) := by
    rw [Bool.eq_iff_iff, holds_after, decide_eq_true_iff]
  rw [hbefore, hafter]
  by_cases hsame : date = bound
  · subst hsame
    simp [Date.lt_irrefl]
  · rcases Date.lt_or_lt_of_ne hsame with hlt | hlt
    · -- an earlier date is not the last day, but it may be the first
      have hback : ¬ bound < date := fun h => Date.lt_irrefl _ (Date.lt_trans hlt h)
      have hlast := Date.ne_last_of_lt hlt
      by_cases hfirst : date = Date.first
      · subst hfirst
        simp [hback, hsame]
      · simp [hlt, hback, hsame, hfirst, hlast]
    · have hback : ¬ date < bound := fun h => Date.lt_irrefl _ (Date.lt_trans h hlt)
      have hfirst := Date.ne_first_of_lt hlt
      by_cases hlast : date = Date.last
      · subst hlast
        simp [hback, hsame]
      · simp [hlt, hback, hsame, hfirst, hlast]

end DateComparison

/-- A limit on dates with a date as its bound holds if the date of its target does. -/
theorem Rule.execute_dateClause {rule : Rule} {comparison : DateComparison} {bound date : Date}
    (h : rule.clause = RuleReader.dateClause comparison (.literal bound))
    {environment : Environment} {records : Records}
    (hdate : readDate (records.value rule.link) environment.datePattern = .ok date) :
    rule.execute environment records =
      .ok ({ passed := comparison.holds date bound != rule.negated }, records) := by
  have hbetween : rule.isBetween records environment
      (RuleReader.dateRange comparison (.literal bound)).1
      (RuleReader.dateRange comparison (.literal bound)).2 = .ok (comparison.holds date bound) := by
    cases comparison <;> simp only [isBetween, hdate] <;> rfl
  simp only [execute, h, RuleReader.dateClause, hbetween]
  rfl

/-- A limit that looks for earlier dates of an attribute, and one that looks for later dates, with
the same date as their bound. -/
structure Rule.DateOrder (before after : Rule) (link : Link) (bound : Date) : Prop where
  /-- What the two find where the attribute holds a date. -/
  outcomes : ∀ environment records date,
    readDate (records.value link) environment.datePattern = .ok date →
    ∃ earlier later : Bool,
      before.execute environment records = .ok ({ passed := earlier }, records) ∧
      after.execute environment records = .ok ({ passed := later }, records) ∧
      (earlier = true ↔ date < bound ∧ date ≠ Date.first) ∧
      (later = true ↔ bound < date ∧ date ≠ Date.last) ∧
      [earlier, later, date == bound].count true =
        if (date = Date.first ∨ date = Date.last) ∧ date ≠ bound then 0 else 1

/-- Limits without negation follow the order of dates. -/
theorem Rule.dateOrder {before after : Rule} {link : Link} {bound : Date}
    (hbefore : before.clause = RuleReader.dateClause .before (.literal bound))
    (hafter : after.clause = RuleReader.dateClause .after (.literal bound))
    (hbeforeLink : before.link = link) (hafterLink : after.link = link)
    (hplain : before.negated = false) (hnegated : after.negated = false) :
    before.DateOrder after link bound := by
  refine ⟨fun environment records date hdate => ?_⟩
  have hearlier := Rule.execute_dateClause hbefore (hbeforeLink ▸ hdate)
  have hlater := Rule.execute_dateClause hafter (hafterLink ▸ hdate)
  rw [hplain, Bool.bne_false] at hearlier
  rw [hnegated, Bool.bne_false] at hlater
  exact ⟨_, _, hearlier, hlater, DateComparison.holds_before, DateComparison.holds_after,
    DateComparison.count_holds date bound⟩

/-- A date with the month in front as a literal without quotes. -/
def Verbatim.ofDate (date : Date) : Verbatim where
  front := .none
  quotes := false
  content := date.monthFirst
  back := .none
  single := fun hm => absurd (Date.mem_monthFirst hm) (by decide)
  bare := fun _ hm => absurd (Date.mem_monthFirst hm) (by decide)

namespace RuleReader

variable {reader : RuleReader}

/-- A limit on dates without `NOT` is read with a literal date as its bound. -/
theorem read_literal_date (hbuilt : reader.registry.Built) {phrase : Phrase}
    {comparison : DateComparison} (hp : phrase ∈ Phrase.dates)
    (ht : phrase.token = .date comparison) (layout : Layout phrase) {link : Link}
    (hlink : reader.readLink layout.target = .ok link) {literal : Verbatim} {bound : Date}
    (hbound : readDate literal.content reader.datePattern = .ok bound) (id : UInt32)
    (label : Option String) :
    reader.read (String.ofList (layout.text literal.text)) id label =
      .ok (layout.rule literal.text link id label (dateClause comparison (.literal bound),
        [.literal (Text.trimmed literal.content)])) := by
  have hreads : reader.Reads layout link id label := fun body => read_layout hbuilt.made
    (List.mem_append_right _ (List.mem_append_left _ (List.mem_append_right _ hp)))
    (open_not_mem_limits (List.mem_append_right _ hp)) layout hlink body id label
  refine hreads.read_eq_ok ?_
  rw [ht]
  exact readClause_date _ comparison hbound

/-- A limit for earlier dates and one for later dates are read with each literal date as their
bound, which may be any date of the calendar. They follow the order of dates, but for the first and
the last day in the record: these pass neither limit. -/
theorem read_dateOrder (hbuilt : reader.registry.Built)
    {before : Layout ⟨"IS BEFORE", .date .before, false⟩}
    {after : Layout ⟨"IS AFTER", .date .after, false⟩} (htarget : after.target = before.target)
    (hbefore : before.negation = none) (hafter : after.negation = none) {link : Link}
    (hlink : reader.readLink before.target = .ok link) (id number : UInt32)
    (label name : Option String) :
    (∀ date : Date, ∃ literal : Verbatim,
      readDate literal.content Calendar.defaultPattern = .ok date) ∧
    ∀ (literal : Verbatim) (bound : Date), readDate literal.content reader.datePattern = .ok bound →
      ∃ earlier later,
        reader.read (String.ofList (before.text literal.text)) id label = .ok earlier ∧
        reader.read (String.ofList (after.text literal.text)) number name = .ok later ∧
        earlier.DateOrder later link bound := by
  refine ⟨fun date => ⟨.ofDate date, date.readDate_monthFirst⟩, fun literal bound hbound => ?_⟩
  have hearlier := read_literal_date hbuilt (by decide) (.refl _) before hlink hbound id label
  rw [← htarget] at hlink
  have hlater := read_literal_date hbuilt (by decide) (.refl _) after hlink hbound number name
  exact ⟨_, _, hearlier, hlater, Rule.dateOrder rfl rfl rfl rfl (negated_rule rfl hbefore ..)
    (negated_rule rfl hafter ..)⟩

/-- The words for earlier dates. -/
def sampleBefore : Layout ⟨"IS BEFORE", .date .before, false⟩ :=
  sampleSearch ⟨['I', 'S'], [(.space, ['B', 'E', 'F', 'O', 'R', 'E'])]⟩ (by decide +kernel)

/-- The words for later dates. -/
def sampleAfter : Layout ⟨"IS AFTER", .date .after, false⟩ :=
  sampleSearch ⟨['I', 'S'], [(.space, ['A', 'F', 'T', 'E', 'R'])]⟩ (by decide +kernel)

/-- The two limits with the first of March as their bound. -/
theorem read_dateOrder_march :
    let reader : RuleReader := { catalog := .ofList [⟨1, 10, "A"⟩] }
    let bound : Date := ⟨2024, 3, 1, by decide, by decide, by decide, by decide⟩
    readDate "03/01/2024" reader.datePattern = .ok bound ∧
      ∃ earlier later,
        reader.read "(N.A) IS BEFORE ('03/01/2024')" 1 none = .ok earlier ∧
        reader.read "(N.A) IS AFTER ('03/01/2024')" 2 none = .ok later ∧
        earlier.DateOrder later ⟨⟨1, 10, "A"⟩, .new⟩ bound := by
  intro reader bound
  have hbefore : String.ofList (sampleBefore.text sampleLiteral.text) =
      "(N.A) IS BEFORE ('03/01/2024')" := by decide +kernel
  have hafter : String.ofList (sampleAfter.text sampleLiteral.text) =
      "(N.A) IS AFTER ('03/01/2024')" := by decide +kernel
  have hlink : reader.readLink sampleBefore.target = .ok ⟨⟨1, 10, "A"⟩, .new⟩ := by
    decide +kernel
  have hbound : readDate "03/01/2024" reader.datePattern = .ok bound := by decide +kernel
  have htarget : sampleAfter.target = sampleBefore.target := rfl
  obtain ⟨earlier, later, hearlier, hlater, horder⟩ :=
    (read_dateOrder .empty htarget rfl rfl hlink 1 2 none none).2 sampleLiteral bound hbound
  rw [hbefore] at hearlier
  rw [hafter] at hlater
  exact ⟨hbound, earlier, later, hearlier, hlater, horder⟩

/-- The limits do not follow the order of dates everywhere: the first day of the calendar is before
the middle of January, and the limit says that it is not. -/
theorem not_read_dateOrder_always :
    ¬ ∀ (reader : RuleReader) (text : String) (bound date : Date) (rule : Rule)
      (environment : Environment) (records : Records), reader.registry.Built →
      readDate text reader.datePattern = .ok bound →
      reader.read ("(N.OpenDate) IS BEFORE ('" ++ text ++ "')") 1 none = .ok rule →
      readDate (records.value rule.link) environment.datePattern = .ok date →
      (rule.execute environment records = .ok ({ passed := true }, records) ↔ date < bound) := by
  intro h
  let bound : Date := ⟨2024, 1, 15, by decide, by decide, by decide, by decide⟩
  let rule : Rule :=
    { id := 1, label := none, expression := "(N.OpenDate) IS BEFORE ('01/15/2024')",
      operator := "IS BEFORE", target := ⟨3, 10, "OpenDate"⟩, record := .new, negated := false,
      operands := [.literal "01/15/2024"],
      clause := .dateLimit .before (.literal .first) (.literal bound) false }
  let records : Records :=
    { new := Record.empty.setValue ⟨3, 10, "OpenDate"⟩ "01/01/-262143" }
  have hiff := h { catalog := .ofList [⟨3, 10, "OpenDate"⟩] } "01/15/2024" bound .first rule
    { today := bound } records .empty (by decide +kernel) (by decide +kernel) (by decide +kernel)
  exact absurd (hiff.mpr (by decide)) (by decide +kernel)

end RuleReader

end Rulebook
