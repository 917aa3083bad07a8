import Rulebook.Expression.Reading
import Rulebook.Proofs.Decimal.WholePart
import Rulebook.Proofs.Record.Cells

/-!
# What arithmetic stores

A rule with arithmetic takes the numbers of its operands together from the left. If the result is
finite and a record is meant, the rule passes and writes the whole part of the result. That is the
result without its fraction as long as this is in the range of signed 64-bit integers; beyond it the
nearest end of the range is written in its place.
-/

namespace Rulebook

open Decimal (rational truncated clamped Fits)

namespace Rule

variable {rule : Rule} {environment : Environment} {records : Records} {operation : Arithmetic}
  {operands : List Source}

/-- A finite result is written without its fraction, or as the nearest end of the range. -/
theorem execute_arithmetic (hclause : rule.clause = .arithmetic operation operands)
    (hfinite : (compute records operation operands).isFinite = true)
    (environment : Environment) : rule.execute environment records =
      .ok (rule.write records
        (toString (clamped (truncated (rational (compute records operation operands)))))) := by
  rw [← Decimal.wholePart_eq hfinite]
  simp only [execute, hclause, hfinite, if_true]

/-- The rule stores a number right: it passes and writes the numeral of the number without its
fraction, or it does not pass and writes nothing. -/
inductive StoresWhole (rule : Rule) (environment : Environment) (records : Records) (number : ℚ) :
    Prop where
  /-- The numeral is written. -/
  | wrote {written : Records}
    (executed : rule.execute environment records = .ok ({ passed := true }, written))
    (numeral : records.write? rule.link (toString (truncated number)) = some written)
  /-- The rule does not pass. -/
  | failed {outcome : Outcome}
    (executed : rule.execute environment records = .ok (outcome, records))
    (failed : outcome.passed = false)

/-- What a rule does that has a number to write which is clamped first. -/
structure StoresClamped (rule : Rule) (environment : Environment) (records : Records) (number : ℚ) :
    Prop where
  /-- Where no record is meant, the rule fails and writes nothing. -/
  unmeant : rule.record = .none →
    rule.execute environment records = .ok (rule.failed (.noRecord rule.target.name), records)
  /-- In a record that is meant the target becomes the number in the range of signed 64-bit integers
  that is nearest to the number without its fraction. -/
  meant : rule.record ≠ .none → ∃ written,
    rule.execute environment records = .ok ({ passed := true }, written) ∧
      records.write? rule.link (toString (clamped (truncated number))) = some written ∧
      written.value rule.link = toString (clamped (truncated number))

/-- A finite result is clamped and written. -/
theorem storesClamped (hclause : rule.clause = .arithmetic operation operands)
    (hfinite : (compute records operation operands).isFinite = true) (environment : Environment) :
    rule.StoresClamped environment records (rational (compute records operation operands)) := by
  have hexecute := execute_arithmetic hclause hfinite environment
  refine ⟨fun hnone => ?_, fun hsome => ?_⟩
  · rw [hexecute, write_of_none hnone]
  · obtain ⟨written, hwrite, hwritten, hvalue⟩ := write_of_record hsome records
      (toString (clamped (truncated (rational (compute records operation operands)))))
    exact ⟨written, hexecute.trans (congrArg Except.ok hwrite), hwritten, hvalue⟩

/-- A number that is clamped first is stored right if it is not written or is in the range, and only
then: beyond the range another numeral is written. -/
theorem StoresClamped.storesWhole_iff {number : ℚ}
    (h : rule.StoresClamped environment records number) :
    rule.StoresWhole environment records number ↔
      rule.record = .none ∨ Fits (truncated number) := by
  constructor
  · intro hstores
    refine or_iff_not_imp_left.mpr fun hsome => ?_
    obtain ⟨written, hexecute, -, hvalue⟩ := h.meant hsome
    cases hstores with
    | wrote executed numeral =>
      rw [executed] at hexecute
      cases hexecute
      rw [Records.value_write? numeral, if_pos ⟨rfl, rfl, rfl⟩] at hvalue
      exact Decimal.clamped_eq_self_iff.mp (Int.repr_inj.mp hvalue).symm
    | failed executed failed =>
      rw [executed] at hexecute
      cases hexecute
      cases failed
  · intro hright
    by_cases hnone : rule.record = .none
    · exact .failed (h.unmeant hnone) rfl
    · obtain ⟨written, hexecute, hwritten, -⟩ := h.meant hnone
      rw [Decimal.clamped_eq_self_iff.mpr (hright.resolve_left hnone)] at hwritten
      exact .wrote hexecute hwritten

/-- A rule with arithmetic whose result is finite stores the result right just if it has no record
to write to or the result without its fraction is in the range of signed 64-bit integers; and in any
case it writes the number in the range that is nearest to it, or fails for want of a record. -/
theorem execute_whole (hclause : rule.clause = .arithmetic operation operands)
    (hfinite : (compute records operation operands).isFinite = true) (environment : Environment) :
    (rule.StoresWhole environment records (rational (compute records operation operands)) ↔
        rule.record = .none ∨
          Fits (truncated (rational (compute records operation operands)))) ∧
      rule.StoresClamped environment records (rational (compute records operation operands)) :=
  ⟨(storesClamped hclause hfinite environment).storesWhole_iff,
    storesClamped hclause hfinite environment⟩

/-- A negative result with a fraction is stored without the fraction. -/
theorem execute_whole_negative :
    let reader : RuleReader := { catalog := .ofList [⟨2, 1, "Fee"⟩] }
    let operands : List Source := [.literal "2.75", .literal "6"]
    (compute {} .diff operands).isFinite = true ∧
      truncated (rational (compute {} .diff operands)) = -3 ∧
      ∃ rule, reader.read "(N.Fee) ASSIGN_DIFF (2.75, 6)" 1 none = .ok rule ∧
        rule.clause = .arithmetic .diff operands ∧ ∀ environment,
          rule.StoresWhole environment {} (rational (compute {} .diff operands)) ∧
            ∃ written, rule.execute environment {} = .ok ({ passed := true }, written) ∧
              written.value ⟨⟨2, 1, "Fee"⟩, .new⟩ = "-3" := by
  intro reader operands
  let rule : Rule :=
    { id := 1, label := none, expression := "(N.Fee) ASSIGN_DIFF (2.75, 6)",
      operator := "ASSIGN_DIFF", target := ⟨2, 1, "Fee"⟩, record := .new, negated := false,
      operands, clause := .arithmetic .diff operands }
  have hread : reader.read "(N.Fee) ASSIGN_DIFF (2.75, 6)" 1 none = .ok rule := by decide +kernel
  have hclause : rule.clause = .arithmetic .diff operands := rfl
  have hfinite : (compute {} .diff operands).isFinite = true := by decide +kernel
  have hthree : truncated (rational (compute {} .diff operands)) = -3 := by
    rw [← Decimal.toInt_eq_truncated hfinite 0 0]
    decide +kernel
  refine ⟨hfinite, hthree, rule, hread, hclause, fun environment => ?_⟩
  obtain ⟨hright, hclamped⟩ := execute_whole hclause hfinite environment
  obtain ⟨written, hexecute, -, hvalue⟩ := hclamped.meant nofun
  rw [hthree] at hright hvalue
  exact ⟨hright.mpr (.inr (by decide)), written, hexecute, hvalue⟩

/-- A finite result is not always stored right: ten thousand million times itself is beyond the
range. -/
theorem not_storesWhole_always : ¬ ∀ (rule : Rule) (environment : Environment) (records : Records)
    (operation : Arithmetic) (operands : List Source),
    rule.clause = .arithmetic operation operands →
    (compute records operation operands).isFinite = true →
    rule.StoresWhole environment records (rational (compute records operation operands)) := by
  intro h
  let operands : List Source := [.literal "10000000000", .literal "10000000000"]
  let rule : Rule :=
    { id := 1, label := none,
      expression := "(N.TotalFees) ASSIGN_PROD (10000000000, 10000000000)",
      operator := "ASSIGN_PROD", target := ⟨5, 10, "TotalFees"⟩, record := .new, negated := false,
      operands, clause := .arithmetic .prod operands }
  let environment : Environment :=
    { today := ⟨2024, 6, 1, by decide, by decide, by decide, by decide⟩ }
  have hfinite : (compute {} .prod operands).isFinite = true := by decide +kernel
  have hlarge : truncated (rational (compute {} .prod operands)) = 10 ^ 20 := by
    rw [← Decimal.toInt_eq_truncated hfinite 0 0]
    decide +kernel
  have hstores := h rule environment {} .prod operands rfl hfinite
  rw [(storesClamped rfl hfinite environment).storesWhole_iff, hlarge] at hstores
  exact absurd hstores (by decide)

end Rule

end Rulebook
