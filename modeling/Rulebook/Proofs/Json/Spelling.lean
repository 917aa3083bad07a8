import Mathlib.Data.List.Basic
import Mathlib.Data.List.TakeWhile
import Mathlib.Tactic.SplitIfs
import Rulebook.Json.Quoted
import Rulebook.Json.Number
import Rulebook.Proofs.Decimal.Digits

/-!
# What spellings of strings and counts mean

Reading a string undoes writing it, and the closing quote behind it is found. A count is read as the
count that was written.
-/

namespace Rulebook.Json

open Rulebook.Decimal

/-- A character is spelled by an escape of one letter, by its number, or by itself. -/
theorem encodeChar_cases (c : Char) :
    (∃ letter, letter ≠ 'u' ∧ shortEscapes.lookup letter = some c ∧
      encodeChar c = ['\\', letter]) ∨
    (c.toNat < 0x20 ∧ encodeChar c =
      ['\\', 'u', '0', '0', hexDigit (c.toNat / 16), hexDigit (c.toNat % 16)]) ∨
    (c ≠ '"' ∧ c ≠ '\\' ∧ 0x20 ≤ c.toNat ∧ encodeChar c = [c]) := by
  unfold encodeChar
  split_ifs with hquote hslash hb hf hn hr ht hcontrol
  · exact .inl ⟨'"', by decide, by rw [hquote]; decide, rfl⟩
  · exact .inl ⟨'\\', by decide, by rw [hslash]; decide, rfl⟩
  · exact .inl ⟨'b', by decide, by rw [hb]; decide, rfl⟩
  · exact .inl ⟨'f', by decide, by rw [hf]; decide, rfl⟩
  · exact .inl ⟨'n', by decide, by rw [hn]; decide, rfl⟩
  · exact .inl ⟨'r', by decide, by rw [hr]; decide, rfl⟩
  · exact .inl ⟨'t', by decide, by rw [ht]; decide, rfl⟩
  · exact .inr (.inl ⟨hcontrol, rfl⟩)
  · exact .inr (.inr ⟨hquote, hslash, by omega, rfl⟩)

/-- The four digits that a control character is spelled with are its number. -/
theorem hexFour?_hexDigit {value : Nat} (h : value < 0x20) :
    hexFour? '0' '0' (hexDigit (value / 16)) (hexDigit (value % 16)) = some value := by
  have hhigh := hexValue_hexDigit (value / 16) (by omega)
  have hlow := hexValue_hexDigit (value % 16) (by omega)
  have hzero : hexValue? '0' = some 0 := by decide
  rw [hexFour?, hhigh, hlow, hzero]
  simp only [Option.bind_eq_bind, Option.bind_some, Option.pure_def, Option.some.injEq]
  omega

/-- Reading the spelling of a character gives the character. -/
theorem decode_encodeChar (c : Char) (rest : List Char) :
    decode (encodeChar c ++ rest) = (decode rest).map (c :: ·) := by
  rcases encodeChar_cases c with ⟨letter, hu, hletter, hspelled⟩ | ⟨hcontrol, hspelled⟩ |
    ⟨hquote, hslash, hplain, hspelled⟩
  all_goals rw [hspelled]
  · rw [List.cons_append, List.cons_append, List.nil_append, decode, hletter]
    · cases decode rest <;> rfl
    · exact fun a b c d more he => absurd he hu
  · have hsmall : ¬ (0xD800 ≤ c.toNat ∧ c.toNat < 0xDC00) := by omega
    have hsmall' : ¬ (0xDC00 ≤ c.toNat ∧ c.toNat < 0xE000) := by omega
    simp only [List.cons_append, List.nil_append, decode, hexFour?_hexDigit hcontrol,
      Option.bind_eq_bind, Option.bind_some, if_neg hsmall, if_neg hsmall', Char.ofNat_toNat,
      Option.pure_def]
    cases decode rest <;> rfl
  · rw [List.singleton_append, decode, if_neg hslash]
    · exact fun _ _ _ _ _ he => absurd he hslash
    · exact fun _ _ he => absurd he hslash

/-- Reading the spelling of a text gives the text. -/
theorem decode_encode (text : List Char) : decode (encode text) = some text := by
  induction text with
  | nil => rfl
  | cons c more ih =>
    have hcons : encode (c :: more) = encodeChar c ++ encode more := List.flatMap_cons
    rw [hcons, decode_encodeChar, ih]
    rfl

/-- The spelling of a character is taken as a part of the string that it stands in. -/
theorem takeQuoted?_encodeChar (c : Char) (rest : List Char) :
    takeQuoted? (encodeChar c ++ rest) =
      (takeQuoted? rest).map fun found => (encodeChar c ++ found.1, found.2) := by
  rcases encodeChar_cases c with ⟨letter, hu, hletter, hspelled⟩ | ⟨hcontrol, hspelled⟩ |
    ⟨hquote, hslash, hplain, hspelled⟩
  all_goals rw [hspelled]
  · rw [List.cons_append, List.cons_append, List.nil_append, takeQuoted?, hletter]
    · rfl
    · exact fun _ _ _ _ _ he => absurd he hu
  · simp only [List.cons_append, List.nil_append, takeQuoted?, hexFour?_hexDigit hcontrol,
      Option.isSome_some, if_true]
  · rw [List.singleton_append, takeQuoted?, if_neg fun h => h.elim hslash (by omega)]
    · rfl
    · exact fun he => absurd he hquote
    · exact fun _ _ _ _ _ he => absurd he hslash
    · exact fun _ _ he => absurd he hslash

/-- A spelled text is taken up to the closing quote behind it. -/
theorem takeQuoted?_encode (text rest : List Char) :
    takeQuoted? (encode text ++ '"' :: rest) = some (encode text, rest) := by
  induction text with
  | nil => rfl
  | cons c more ih =>
    have hcons : encode (c :: more) = encodeChar c ++ encode more := List.flatMap_cons
    rw [hcons, List.append_assoc, takeQuoted?_encodeChar, ih]
    rfl

theorem text?_ofString (text : String) : (ofString text).text? = some text := by
  rw [ofString, text?, String.toList_ofList, decode_encode, Option.map_some, String.ofList_toList]

/-- A count is a number without a sign, a fraction and a power of ten. -/
theorem numberParts?_toDigits (count : Nat) :
    numberParts? (Nat.toDigits 10 count) = some ⟨false, Nat.toDigits 10 count, none, none⟩ := by
  have hdigits : ∀ c ∈ Nat.toDigits 10 count, isDigit c = true := fun _ => isDigit_of_mem_toDigits
  have hzero : ¬ ((Nat.toDigits 10 count).length ≠ 1 ∧
      (Nat.toDigits 10 count).head? = some '0') := by
    rcases Nat.eq_zero_or_pos count with rfl | hpos
    · decide
    · exact fun h => head?_toDigits_ne hpos h.2
  have hne : Nat.toDigits 10 count ≠ [] := Nat.toDigits_ne_nil
  have hunsigned : unsignedParts? false (Nat.toDigits 10 count) =
      some ⟨false, Nat.toDigits 10 count, none, none⟩ := by
    rw [unsignedParts?, List.takeWhile_eq_self_iff.mpr hdigits,
      List.dropWhile_eq_nil_iff.mpr hdigits]
    simp only [hne, hzero, or_self, if_false]
    rfl
  cases htext : Nat.toDigits 10 count with
  | nil => exact absurd htext hne
  | cons c more =>
    have hminus : c ≠ '-' := by
      rintro rfl
      have := hdigits '-' (by rw [htext]; exact List.mem_cons_self)
      exact absurd this (by decide)
    rw [htext] at hunsigned
    rw [numberParts?, hunsigned]
    exact fun _ he => hminus (List.cons.inj he).1

theorem nat?_ofNat (count : Nat) : (ofNat count).nat? = some count := by
  rw [ofNat, nat?, toList_toString, numberParts?_toDigits]
  simp [digits_toDigits]

theorem uint32?_ofNat (id : UInt32) : (ofNat id.toNat).uint32? = some id := by
  rw [uint32?, nat?_ofNat, Option.bind_some, if_pos id.toNat_lt]
  simp

theorem uint64?_ofNat (version : UInt64) : (ofNat version.toNat).uint64? = some version := by
  rw [uint64?, nat?_ofNat, Option.bind_some, if_pos version.toNat_lt]
  simp

/-- Digits add to the value of the digits before them. -/
theorem le_digitsFrom (start : Nat) (run : List Char) : start ≤ digitsFrom start run := by
  induction run generalizing start with
  | nil => exact Nat.le_refl start
  | cons c more ih =>
    have hnext := ih (start * 10 + (c.toNat - '0'.toNat))
    have hcons : digitsFrom start (c :: more) =
        digitsFrom (start * 10 + (c.toNat - '0'.toNat)) more := rfl
    omega

/-- All digits of a number of 64 bits count. -/
theorem appendDigits_eq {start : Nat} {run : List Char} (h : digitsFrom start run < UInt64.size) :
    appendDigits start run = (digitsFrom start run, []) := by
  induction run generalizing start with
  | nil => rfl
  | cons c more ih =>
    have hcons : digitsFrom start (c :: more) =
        digitsFrom (start * 10 + (c.toNat - '0'.toNat)) more := rfl
    have hstart := le_digitsFrom (start * 10 + (c.toNat - '0'.toNat)) more
    rw [hcons] at h ⊢
    rw [appendDigits, if_pos (by omega), ih h]

/-- A count of 64 bits is a number in the range of binary64. -/
theorem isSome_float?_ofNat {count : Nat} (h : count < UInt64.size) :
    (ofNat count).float?.isSome := by
  have hall : appendDigits 0 (Nat.toDigits 10 count) = (count, []) := by
    have hdigits : digitsFrom 0 (Nat.toDigits 10 count) = count := digits_toDigits count
    rw [appendDigits_eq (by rwa [hdigits]), hdigits]
  rw [ofNat, float?, toList_toString, numberParts?_toDigits]
  simp [NumberParts.magnitude?, hall]

end Rulebook.Json
