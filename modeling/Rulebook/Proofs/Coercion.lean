import Rulebook.Coercion
import Rulebook.Proofs.Calendar.Marks
import Rulebook.Proofs.Text.Words

/-!
# What the texts of numbers and dates hold

A text that is read as a number holds no ampersand, so it is the same with and without references.
A text that is read as a date holds a digit, because no date is complete without its year; so no
word is mistaken for a date.
-/

namespace Rulebook

namespace Decimal

theorem toLower_digit {c : Char} (h : isDigit c = true) : c.toLower = c := by
  have hle : c ≤ '9' := of_decide_eq_true (Bool.and_eq_true_iff.mp h).2
  exact dif_neg fun hupper => absurd (UInt32.le_trans hupper.1 hle) (by decide)

theorem amp_not_mem_digits {text : List Char} (h : text.all isDigit = true) : '&' ∉ text :=
  fun hm => absurd (List.all_eq_true.mp h '&' hm) (by decide)

theorem amp_not_mem_takeWhile (text : List Char) : '&' ∉ text.takeWhile isDigit :=
  amp_not_mem_digits (List.all_eq_true.mpr fun _ => List.mem_takeWhile_imp)

/-- An ampersand is no sign. -/
theorem amp_mem_splitSign {text : List Char} (h : '&' ∈ text) : '&' ∈ (splitSign text).2 := by
  unfold splitSign
  split
  · simpa using h
  · simpa using h
  · exact h

/-- There is no ampersand in a power of ten. -/
theorem amp_not_mem_exponent {text : List Char} (h : (exponent? text).isSome = true) :
    '&' ∉ text := by
  intro hm
  cases text with
  | nil => cases hm
  | cons c rest =>
    rw [exponent?] at h
    split at h
    · next hletter =>
      split at h
      next negative run hsign =>
      split at h
      · next hrun =>
        rcases List.mem_cons.mp hm with rfl | hm
        · exact absurd hletter (by decide)
        · have hmem := amp_mem_splitSign hm
          rw [hsign] at hmem
          exact amp_not_mem_digits hrun.2 hmem
      · cases h
    · cases h

/-- An ampersand is neither a digit nor a point. -/
theorem amp_mem_splitPoint {text : List Char} (h : '&' ∈ text) : '&' ∈ (splitPoint text).2.2 := by
  have hrest : '&' ∈ text.dropWhile isDigit := by
    rw [← List.takeWhile_append_dropWhile (p := isDigit) (l := text)] at h
    exact (List.mem_append.mp h).resolve_left (amp_not_mem_takeWhile text)
  unfold splitPoint
  split
  · next rest heq =>
    rw [heq] at hrest
    have hlater : '&' ∈ rest := by simpa using hrest
    rw [← List.takeWhile_append_dropWhile (p := isDigit) (l := rest)] at hlater
    exact (List.mem_append.mp hlater).resolve_left (amp_not_mem_takeWhile rest)
  · exact hrest

/-- There is no ampersand in a numeral with digits. -/
theorem amp_not_mem_of_positional? {text : List Char} {value : Float}
    (h : positional? text = some value) : '&' ∉ text := by
  intro hm
  have hbehind := amp_mem_splitPoint hm
  rw [positional?] at h
  split at h
  next whole fraction rest hsplit =>
  rw [hsplit] at hbehind
  split at h
  · cases h
  · obtain ⟨power, hpower, -⟩ := Option.map_eq_some_iff.mp h
    exact amp_not_mem_exponent (Option.isSome_of_eq_some hpower) hbehind

/-- There is no ampersand in a numeral without sign. -/
theorem amp_not_mem_of_magnitude? {text : List Char} {value : Float}
    (h : magnitude? text = some value) : '&' ∉ text := by
  intro hm
  have hlower : '&' ∈ Text.lower text := List.mem_map_of_mem (f := Char.toLower) hm
  unfold magnitude? at h
  split at h
  · next heq => exact absurd (heq ▸ hlower) (by decide)
  · next heq => exact absurd (heq ▸ hlower) (by decide)
  · next heq => exact absurd (heq ▸ hlower) (by decide)
  · exact amp_not_mem_of_positional? h hm

theorem amp_not_mem_of_read? {text : List Char} {value : Float} (h : read? text = some value) :
    '&' ∉ text := by
  obtain ⟨magnitude, hmagnitude, -⟩ := Option.map_eq_some_iff.mp h
  exact fun hm => amp_not_mem_of_magnitude? hmagnitude (amp_mem_splitSign hm)

end Decimal

/-- There is no ampersand in the text of a number. -/
theorem amp_not_mem_of_readNumber {text : String} {value : Float}
    (h : readNumber text = .ok value) : '&' ∉ text.toList := by
  intro hm
  obtain ⟨front, back, hsplit⟩ := Text.exists_trim text.toList
  have htrim : '&' ∈ Text.trim text.toList := by
    rw [hsplit] at hm
    have hblank : Text.isBlank '&' = false := by decide
    simpa [front.not_mem hblank, back.not_mem hblank] using hm
  unfold readNumber at h
  split at h
  · next number hread => exact Decimal.amp_not_mem_of_read? hread htrim
  · cases h

/-- The blanks around a number do not count. -/
theorem readNumber_trimmed {text : String} {value : Float} (h : readNumber text = .ok value) :
    readNumber (Text.trimmed text) = .ok value := by
  unfold readNumber at h ⊢
  rw [Text.trimmed, String.toList_ofList, Text.trim_trim]
  split at h
  · next number hread =>
    split at h
    · next hfinite =>
      rw [if_pos hfinite]
      exact h
    · cases h
  · cases h

/-- Blanks are no number. -/
theorem trim_ne_nil_of_readNumber {text : String} {value : Float}
    (h : readNumber text = .ok value) : Text.trim text.toList ≠ [] := by
  intro hnil
  rw [readNumber, hnil] at h
  cases h

namespace Calendar

/-- There are no digits in the text. -/
def Wordy (text : List Char) : Prop := ∀ c ∈ text, Decimal.isDigit c = false

theorem Wordy.subset {text part : List Char} (h : Wordy text) (hs : part ⊆ text) : Wordy part :=
  fun c hc => h c (hs hc)

/-- A part of which the year of a date is made. -/
def Part.isYear : Part → Bool
  | .year | .century | .yearOfCentury | .weekYear | .weekYearOfCentury => true
  | _ => false

/-- No part of a year was found. -/
def Parts.Yearless (parts : Parts) : Prop :=
  ∀ part : Part, part.isYear = true → parts.get? part = none

theorem run?_eq_none {least most : Nat} {text : List Char} (hl : 0 < least) (h : Wordy text) :
    run? least most text = none := by
  have hrun : (text.take most).takeWhile Decimal.isDigit = [] := by
    rw [List.takeWhile_eq_nil_iff]
    intro hlt
    exact Bool.eq_false_iff.mp (h _ (List.mem_of_mem_take (List.getElem_mem hlt)))
  rw [run?, hrun]
  exact if_pos hl

theorem number?_eq_none {text : List Char} (h : Wordy text) (width : Nat) :
    number? width text = none := by
  rw [number?, run?_eq_none Nat.one_pos h, Option.map_none]

/-- Without digits no field is read. -/
theorem Field.read?_eq_none {text : List Char} (h : Wordy text) (field : Field) :
    field.read? text = none := by
  have htrim : Wordy (Text.trimStart text) := h.subset (List.dropWhile_sublist _).subset
  unfold Field.read?
  dsimp only
  split
  · next rest _ heq =>
    rw [heq] at htrim
    rw [number?_eq_none (htrim.subset (List.subset_cons_self _ _))]
    rfl
  · next rest _ heq =>
    rw [heq] at htrim
    rw [number?_eq_none (htrim.subset (List.subset_cons_self _ _))]
    rfl
  · rw [number?_eq_none htrim]
    rfl

/-- Every step takes its text off the front. -/
theorem Item.subset_of_read? {item : Item} {found : List (Part × Int)} {text rest : List Char}
    (h : item.read? text = some (found, rest)) : rest ⊆ text := by
  cases item with
  | literal c =>
    cases text with
    | nil => cases h
    | cons d more =>
      rw [Item.read?] at h
      split at h
      · cases h
        exact List.subset_cons_self _ _
      · cases h
  | zoneName =>
    cases h
    exact (List.dropWhile_sublist _).subset
  | _ => exact (Item.leaves_of_read? h (fun _ => by simp) (by simp)).subset

theorem nanosecond_of_readFraction? {places : Option Nat} {found : List (Part × Int)}
    {text rest : List Char} (h : readFraction? places text = some (found, rest)) :
    ∀ entry ∈ found, entry.1 = .nanosecond := by
  obtain ⟨⟨run, behind⟩, -, heq⟩ := Option.bind_eq_some_iff.mp h
  cases heq
  simp

/-- Only a number gives a part of a year, and there is none in a text without digits. -/
theorem Item.isYear_eq_false_of_read? {item : Item} {found : List (Part × Int)}
    {text rest : List Char} (h : item.read? text = some (found, rest)) (ht : Wordy text) :
    ∀ entry ∈ found, entry.1.isYear = false := by
  cases item with
  | blanks | zoneName =>
    cases h
    exact nofun
  | literal c =>
    cases text with
    | nil => cases h
    | cons d more =>
      rw [Item.read?] at h
      split at h
      · cases h
        exact nofun
      · cases h
  | number field =>
    rw [Item.read?, Field.read?_eq_none ht] at h
    cases h
  | fraction pointed places =>
    have hfraction {text : List Char} (h : readFraction? places text = some (found, rest)) :
        ∀ entry ∈ found, entry.1.isYear = false := fun entry hm => by
      rw [nanosecond_of_readFraction? h entry hm]
      rfl
    rw [Item.read?] at h
    split at h
    · unfold readPointed? at h
      split at h
      · exact hfraction h
      · cases h
        exact nofun
    · exact hfraction h
  | monthName long | weekdayName long | halfOfDay | offset form =>
    obtain ⟨_, _, heq⟩ := Option.map_eq_some_iff.mp h
    cases heq
    exact List.forall_mem_singleton.mpr rfl
  | separator =>
    obtain ⟨_, _, heq⟩ := Option.map_eq_some_iff.mp h
    cases heq
    exact nofun
  | unknown => cases h

theorem Parts.Yearless.set? {parts next : Parts} {part : Part} {value : Int} (h : parts.Yearless)
    (hp : part.isYear = false) (hs : parts.set? part value = some next) : next.Yearless := by
  unfold Parts.set? at hs
  split at hs
  · cases hs
    intro other hother
    have hne : (other == part) = false := beq_false_of_ne fun heq => by
      rw [heq, hp] at hother
      cases hother
    rw [get?, List.lookup_cons, hne]
    exact h other hother
  · split at hs
    · cases hs
      exact h
    · cases hs

theorem Parts.Yearless.setAll? {found : List (Part × Int)} {parts next : Parts} (h : parts.Yearless)
    (hf : ∀ entry ∈ found, entry.1.isYear = false) (hs : parts.setAll? found = some next) :
    next.Yearless := by
  induction found generalizing parts with
  | nil =>
    cases hs
    exact h
  | cons entry more ih =>
    obtain ⟨hfirst, hmore⟩ := List.forall_mem_cons.mp hf
    obtain ⟨middle, hmiddle, hs⟩ := Option.bind_eq_some_iff.mp hs
    exact ih (h.set? hfirst hmiddle) hmore hs

/-- A whole pattern finds no year in a text without digits. -/
theorem yearless_of_readItems? {items : List Item} {parts last : Parts} {text : List Char}
    (h : readItems? items parts text = some last) (hp : parts.Yearless) (ht : Wordy text) :
    last.Yearless := by
  induction items generalizing parts text with
  | nil =>
    cases text with
    | nil =>
      cases h
      exact hp
    | cons c rest => cases h
  | cons item more ih =>
    obtain ⟨⟨found, rest⟩, hitem, h⟩ := Option.bind_eq_some_iff.mp h
    obtain ⟨next, hnext, h⟩ := Option.bind_eq_some_iff.mp h
    exact ih h (hp.setAll? (Item.isYear_eq_false_of_read? hitem ht) hnext)
      (ht.subset (Item.subset_of_read? hitem))

/-- There is no date without a digit. -/
theorem not_wordy_of_readDate? {pattern text : String} {date : Date}
    (h : readDate? pattern text = some date) : ¬ Wordy text.toList := by
  intro hw
  obtain ⟨parts, hparts, hdate⟩ := Option.bind_eq_some_iff.mp h
  have hyearless := yearless_of_readItems? hparts (fun _ _ => rfl) hw
  simp [Parts.date?, Parts.determined?, resolveYear?, hyearless .year rfl, hyearless .century rfl,
    hyearless .yearOfCentury rfl, hyearless .weekYear rfl, hyearless .weekYearOfCentury rfl]
    at hdate

end Calendar

/-- The blanks around a date do not count. -/
theorem readDate_trimmed {text pattern : String} {date : Calendar.Date}
    (h : readDate text pattern = .ok date) : readDate (Text.trimmed text) pattern = .ok date := by
  unfold readDate at h ⊢
  rw [Text.trimmed_trimmed]
  split at h
  · exact h
  · cases h

/-- Blanks are no date. -/
theorem trim_ne_nil_of_readDate {text pattern : String} {date : Calendar.Date}
    (h : readDate text pattern = .ok date) : Text.trim text.toList ≠ [] := by
  intro hnil
  unfold readDate at h
  split at h
  · next found hread =>
    refine Calendar.not_wordy_of_readDate? hread fun c hc => ?_
    rw [Text.trimmed, hnil] at hc
    cases hc
  · cases h

/-- No text of a date is like a word without digits. -/
theorem alike_eq_false_of_readDate {text pattern word : String} {date : Calendar.Date}
    (h : readDate text pattern = .ok date)
    (hw : (Text.lower word.toList).any Decimal.isDigit = false) :
    Text.alike (Text.trimmed text) word = false := by
  unfold readDate at h
  split at h
  · next found hread =>
    refine beq_eq_false_iff_ne.mpr fun hlower => Calendar.not_wordy_of_readDate? hread ?_
    intro c hc
    have hsmall : c.toLower ∈ Text.lower word.toList := hlower ▸ List.mem_map_of_mem hc
    cases hdigit : Decimal.isDigit c with
    | false => rfl
    | true =>
      rw [Decimal.toLower_digit hdigit] at hsmall
      exact absurd hdigit (List.any_eq_false.mp hw c hsmall)
  · cases h

end Rulebook
