import Mathlib.Algebra.Group.Nat.Defs
import Mathlib.Data.List.Basic
import Rulebook.Decimal.Numeral

/-!
# The digits of counts

A count is written with digits alone and no zero in front. The digits have the count as their value,
with and without more zeros in front.
-/

namespace Rulebook.Decimal

theorem toList_toString (count : Nat) : (toString count).toList = Nat.toDigits 10 count := by
  rw [Nat.toString_eq_ofList_toDigits, String.toList_ofList]

theorem isDigit_of_mem_toDigits {count : Nat} {c : Char} (h : c ∈ Nat.toDigits 10 count) :
    isDigit c = true := by
  have hdigit := Nat.isDigit_of_mem_toDigits (by decide) (by decide) h
  simpa [isDigit, Char.isDigit, Char.le_def] using hdigit

/-- The value of the digits of a count is the count. -/
theorem digits_toDigits (count : Nat) : digits (Nat.toDigits 10 count) = count := by
  have hvalue : digits (Nat.toDigits 10 count) = Nat.ofDigitChars 10 (Nat.toDigits 10 count) 0 := by
    rw [Nat.ofDigitChars_eq_foldl, digits, digitsFrom]
    simp only [Nat.mul_comm]
  rw [hvalue, Nat.ofDigitChars_toDigits (by decide) (by decide)]

/-- A count that is not zero begins with no zero. -/
theorem head?_toDigits_ne {count : Nat} (h : 0 < count) :
    (Nat.toDigits 10 count).head? ≠ some '0' := by
  induction count using Nat.strongRecOn with
  | ind count ih =>
    rcases Nat.lt_or_ge count 10 with hsmall | hlarge
    · rw [Nat.toDigits_of_lt_base hsmall]
      have hall : ∀ digit < 10, 0 < digit → [Nat.digitChar digit].head? ≠ some '0' := by decide
      exact hall count hsmall h
    · rw [Nat.toDigits_of_base_le (by decide) hlarge,
        List.head?_append_of_ne_nil _ Nat.toDigits_ne_nil]
      exact ih (count / 10) (by omega) (by omega)

/-- A count has no more digits than a power of ten has zeros if it is below the power. -/
theorem length_toString_le_iff (count : Nat) {width : Nat} (hw : 0 < width) :
    (toString count).length ≤ width ↔ count < 10 ^ width := by
  rw [← String.length_toList, toList_toString, Nat.length_toDigits_le_iff (by decide) hw]

theorem length_toString_pos (count : Nat) : 0 < (toString count).length := by
  rw [← String.length_toList, toList_toString]
  exact List.length_pos_of_ne_nil Nat.toDigits_ne_nil

/-- A text is made of digits and has a value. -/
structure Spells (run : List Char) (value : Nat) : Prop where
  /-- It holds nothing but digits. -/
  isDigit : ∀ c ∈ run, isDigit c = true
  /-- The digits have the value. -/
  digits : digits run = value

theorem spells_toString (count : Nat) : Spells (toString count).toList count := by
  rw [toList_toString]
  exact ⟨fun _ => isDigit_of_mem_toDigits, digits_toDigits count⟩

/-- Zeros in front do not change what is spelled. -/
theorem Spells.replicate_append {run : List Char} {value : Nat} (h : Spells run value)
    (zeros : Nat) : Spells (List.replicate zeros '0' ++ run) value := by
  induction zeros with
  | zero => exact h
  | succ zeros ih => exact ⟨List.forall_mem_cons.mpr ⟨rfl, ih.isDigit⟩, ih.digits⟩

end Rulebook.Decimal
