import Mathlib.Data.List.DropRight
import Rulebook.Calendar.Pattern

/-!
# What the steps of a pattern read

Numbers, names and distances from universal time are written with plain characters: blanks, digits,
letters and a few signs. Every other character, such as a semicolon, is read where the pattern has
it itself, or in the name of a zone. So all texts that a pattern without such a name reads have as
many of it as the pattern, and a text that was changed there is not read by the same pattern.
-/

namespace Rulebook

/-- Dropping characters from the front that are other ones keeps the number of a character. -/
theorem Text.count_dropWhile {c : Char} {p : Char → Bool} (h : p c = false) (text : List Char) :
    (text.dropWhile p).count c = text.count c := by
  have hfree : c ∉ text.takeWhile p := fun hm =>
    absurd (List.mem_takeWhile_imp hm) (Bool.eq_false_iff.mp h)
  conv_rhs => rw [← List.takeWhile_append_dropWhile (p := p) (l := text)]
  rw [List.count_append, List.count_eq_zero_of_not_mem hfree, Nat.zero_add]

theorem Text.count_trim {c : Char} (h : isBlank c = false) (text : List Char) :
    (trim text).count c = text.count c := by
  rw [trim, trimEnd, List.count_reverse, Text.count_dropWhile h, List.count_reverse, trimStart,
    Text.count_dropWhile h]

namespace Calendar

/-- The characters that numbers, names and distances from universal time are written with. -/
def isPlain (c : Char) : Bool :=
  Text.isBlank c || Decimal.isDigit c || c.toLower.isLower || "+-−:.".toList.contains c

/-- The rest of a text behind a front of plain characters. -/
def Leaves (text rest : List Char) : Prop :=
  ∃ front, text = front ++ rest ∧ ∀ c ∈ front, isPlain c = true

/-- A step of a pattern reads a character that is not plain if it is that character itself. -/
def Item.marks (c : Char) (item : Item) : Nat := if item = .literal c then 1 else 0

/-- The steps of a pattern read the characters that are steps themselves. -/
def Item.marksAll (c : Char) : List Item → Nat
  | [] => 0
  | item :: more => item.marks c + marksAll c more

section

variable {c : Char} {text middle rest : List Char}

theorem Leaves.refl (text : List Char) : Leaves text text := ⟨[], rfl, nofun⟩

theorem Leaves.trans (h : Leaves text middle) (hm : Leaves middle rest) : Leaves text rest := by
  obtain ⟨front, rfl, hfront⟩ := h
  obtain ⟨more, rfl, hmore⟩ := hm
  exact ⟨front ++ more, (List.append_assoc ..).symm, List.forall_mem_append.mpr ⟨hfront, hmore⟩⟩

theorem Leaves.subset (h : Leaves text rest) : rest ⊆ text := by
  obtain ⟨front, rfl, -⟩ := h
  exact List.subset_append_right _ _

/-- Nothing but plain characters is taken. -/
theorem Leaves.count_eq (h : Leaves text rest) (hc : isPlain c = false) :
    rest.count c = text.count c := by
  obtain ⟨front, rfl, hfront⟩ := h
  have hfree : c ∉ front := fun hm => Bool.eq_false_iff.mp hc (hfront c hm)
  rw [List.count_append, List.count_eq_zero_of_not_mem hfree, Nat.zero_add]

theorem leaves_cons (h : isPlain c = true) (rest : List Char) : Leaves (c :: rest) rest :=
  ⟨[c], rfl, List.forall_mem_singleton.mpr h⟩

theorem leaves_dropWhile {p : Char → Bool} (hp : ∀ c, p c = true → isPlain c = true)
    (text : List Char) : Leaves text (text.dropWhile p) :=
  ⟨text.takeWhile p, List.takeWhile_append_dropWhile.symm, fun c hc =>
    hp c (List.mem_takeWhile_imp hc)⟩

theorem leaves_trimStart (text : List Char) : Leaves text (Text.trimStart text) :=
  leaves_dropWhile (fun c hc => by simp [isPlain, hc]) text

/-- A run consists of digits. -/
theorem leaves_run? {least most : Nat} {run : List Char}
    (h : run? least most text = some (run, rest)) : Leaves text rest := by
  unfold run? at h
  dsimp only at h
  split at h
  · cases h
  · cases h
    have hprefix : (text.take most).takeWhile Decimal.isDigit <+: text :=
      (List.takeWhile_prefix _).trans (List.take_prefix _ _)
    exact ⟨_, (List.prefix_iff_eq_append.mp hprefix).symm, fun c hc => by
      simp [isPlain, List.mem_takeWhile_imp hc]⟩

theorem leaves_number? {width value : Nat} (h : number? width text = some (value, rest)) :
    Leaves text rest := by
  obtain ⟨⟨run, behind⟩, hrun, heq⟩ := Option.map_eq_some_iff.mp h
  cases heq
  exact leaves_run? hrun

/-- A number may have a sign and blanks in front. -/
theorem leaves_field {field : Field} {value : Int} (h : field.read? text = some (value, rest)) :
    Leaves text rest := by
  have hnumber {width : Nat} (sign : Int) {text : List Char}
      (h : (number? width text).map (fun found => (sign * found.1, found.2)) =
        some (value, rest)) : Leaves text rest := by
    obtain ⟨⟨found, behind⟩, hfound, heq⟩ := Option.map_eq_some_iff.mp h
    cases heq
    exact leaves_number? hfound
  refine (leaves_trimStart text).trans ?_
  unfold Field.read? at h
  dsimp only at h
  split at h
  · next digits _ heq =>
    rw [heq]
    exact (leaves_cons (by decide) digits).trans
      (hnumber (-1) (by simpa only [Int.neg_one_mul] using h))
  · next digits _ heq =>
    rw [heq]
    exact (leaves_cons (by decide) digits).trans
      (hnumber 1 (by simpa only [Int.one_mul] using h))
  · exact hnumber 1 (by simpa only [Int.one_mul] using h)

/-- A word of small letters is read without regard to case. -/
theorem leaves_dropWord? {word : String} (hw : word.toList.all Char.isLower = true)
    (h : dropWord? word text = some rest) : Leaves text rest := by
  unfold dropWord? at h
  split at h
  · next hword =>
    cases h
    refine ⟨text.take word.length, (List.take_append_drop _ _).symm, fun c hc => ?_⟩
    have hsmall : c.toLower ∈ word.toList := hword ▸ List.mem_map_of_mem (f := Char.toLower) hc
    simp [isPlain, List.all_eq_true.mp hw _ hsmall]
  · cases h

/-- The names of the months and of the days of the week have small letters only. -/
theorem isLower_names : ∀ name ∈ monthNames ++ weekdayNames,
    name.1.toList.all Char.isLower = true ∧ name.2.toList.all Char.isLower = true := by
  decide +kernel

theorem leaves_readName? {names : List (String × String)} (hn : names ⊆ monthNames ++ weekdayNames)
    {long : Bool} {place : Nat} (h : readName? names long text = some (place, rest)) :
    Leaves text rest := by
  obtain ⟨⟨⟨short, remainder⟩, index⟩, hm, h⟩ := List.exists_of_findSome?_eq_some h
  obtain ⟨behind, hbehind, heq⟩ := Option.map_eq_some_iff.mp h
  obtain ⟨hshort, hremainder⟩ := isLower_names _ (hn (List.fst_mem_of_mem_zipIdx hm))
  have hfirst := leaves_dropWord? hshort hbehind
  cases heq
  split
  · cases hlong : dropWord? remainder behind with
    | none => exact hfirst
    | some last => exact hfirst.trans (leaves_dropWord? hremainder hlong)
  · exact hfirst

theorem leaves_readFraction? {places : Option Nat} {found : List (Part × Int)}
    (h : readFraction? places text = some (found, rest)) : Leaves text rest := by
  obtain ⟨⟨run, behind⟩, hrun, heq⟩ := Option.bind_eq_some_iff.mp h
  cases heq
  split
  · exact (leaves_run? hrun).trans (leaves_dropWhile (fun c hc => by simp [isPlain, hc]) behind)
  · exact leaves_run? hrun

theorem leaves_readPointed? {places : Option Nat} {found : List (Part × Int)}
    (h : readPointed? places text = some (found, rest)) : Leaves text rest := by
  unfold readPointed? at h
  split at h
  · next digits => exact (leaves_cons (by decide) digits).trans (leaves_readFraction? h)
  · cases h
    exact .refl _

theorem leaves_readSeparator? (h : readSeparator? text = some rest) : Leaves text rest := by
  unfold readSeparator? at h
  split at h
  · cases h
    exact leaves_cons (by decide) rest
  · exact leaves_dropWord? (by decide +kernel) h

theorem leaves_readHalf? {half : Int} (h : readHalf? text = some (half, rest)) :
    Leaves text rest := by
  unfold readHalf? at h
  split at h
  · next behind hword =>
    cases h
    exact leaves_dropWord? (by decide +kernel) hword
  · obtain ⟨behind, hword, heq⟩ := Option.map_eq_some_iff.mp h
    cases heq
    exact leaves_dropWord? (by decide +kernel) hword

theorem leaves_readDistance? {lenient : Bool} {value : Int}
    (h : readDistance? lenient text = some (value, rest)) : Leaves text rest := by
  obtain ⟨⟨hours, behind⟩, hhours, h⟩ := Option.bind_eq_some_iff.mp h
  have hfront : Leaves text (behind.dropWhile fun c => c == ':' || Text.isBlank c) := by
    refine (leaves_run? hhours).trans (leaves_dropWhile (fun c hc => ?_) behind)
    rcases Bool.or_eq_true_iff.mp hc with hcolon | hblank
    · rw [beq_iff_eq.mp hcolon]
      decide
    · simp [isPlain, hblank]
  dsimp only at h
  split at h
  · next hend =>
    cases h
    rw [Bool.and_eq_true, List.isEmpty_iff] at hend
    rwa [hend.2] at hfront
  · obtain ⟨⟨minutes, last⟩, hminutes, h⟩ := Option.bind_eq_some_iff.mp h
    dsimp only at h
    split at h
    · cases h
      exact hfront.trans (leaves_run? hminutes)
    · cases h

theorem leaves_readOffset? {form : OffsetForm} {value : Int}
    (h : readOffset? form text = some (value, rest)) : Leaves text rest := by
  have hnegative {digits : List Char}
      (h : (readDistance? (form = .lenient) digits).map (fun found => (-found.1, found.2)) =
        some (value, rest)) : Leaves digits rest := by
    obtain ⟨⟨found, behind⟩, hfound, heq⟩ := Option.map_eq_some_iff.mp h
    cases heq
    exact leaves_readDistance? hfound
  refine (leaves_trimStart text).trans ?_
  unfold readOffset? at h
  dsimp only at h
  split at h
  · next behind heq =>
    cases h
    split at heq
    · exact leaves_dropWord? (by decide +kernel) heq
    · cases heq
  · split at h
    · next digits heq =>
      rw [heq]
      exact (leaves_cons (by decide) digits).trans (leaves_readDistance? h)
    · next digits heq =>
      rw [heq]
      exact (leaves_cons (by decide) digits).trans (hnegative h)
    · next digits heq =>
      rw [heq]
      exact (leaves_cons (by decide) digits).trans (hnegative h)
    · split at h
      · cases h
      · obtain ⟨behind, hbehind, hmap⟩ := Option.map_eq_some_iff.mp h
        cases hmap
        exact leaves_dropWord? (by decide +kernel) hbehind

/-- All steps but the characters that stand for themselves and the names of zones take plain
characters only. -/
theorem Item.leaves_of_read? {item : Item} {found : List (Part × Int)}
    (h : item.read? text = some (found, rest)) (hl : ∀ c, item ≠ .literal c)
    (hz : item ≠ .zoneName) : Leaves text rest := by
  cases item with
  | blanks =>
    cases h
    exact leaves_trimStart text
  | literal c => exact absurd rfl (hl c)
  | number field =>
    obtain ⟨⟨value, behind⟩, hfield, h⟩ := Option.bind_eq_some_iff.mp h
    obtain ⟨parts, -, heq⟩ := Option.bind_eq_some_iff.mp h
    cases heq
    exact leaves_field hfield
  | monthName long =>
    obtain ⟨⟨place, behind⟩, hname, heq⟩ := Option.map_eq_some_iff.mp h
    cases heq
    exact leaves_readName? (List.subset_append_left _ _) hname
  | weekdayName long =>
    obtain ⟨⟨place, behind⟩, hname, heq⟩ := Option.map_eq_some_iff.mp h
    cases heq
    exact leaves_readName? (List.subset_append_right _ _) hname
  | halfOfDay =>
    obtain ⟨⟨half, behind⟩, hhalf, heq⟩ := Option.map_eq_some_iff.mp h
    cases heq
    exact leaves_readHalf? hhalf
  | fraction pointed places =>
    rw [Item.read?] at h
    split at h
    · exact leaves_readPointed? h
    · exact leaves_readFraction? h
  | zoneName => exact absurd rfl hz
  | offset form =>
    obtain ⟨⟨value, behind⟩, hoffset, heq⟩ := Option.map_eq_some_iff.mp h
    cases heq
    exact leaves_readOffset? hoffset
  | separator =>
    obtain ⟨behind, hseparator, heq⟩ := Option.map_eq_some_iff.mp h
    cases heq
    exact leaves_readSeparator? hseparator
  | unknown => cases h

/-- A step of a pattern reads a character that is not plain if it is that character, or in the name
of a zone. -/
theorem Item.count_of_read? (hc : isPlain c = false) {item : Item} {found : List (Part × Int)}
    (hz : item ≠ .zoneName) (h : item.read? text = some (found, rest)) :
    text.count c = item.marks c + rest.count c := by
  by_cases hl : ∀ d, item ≠ .literal d
  · have hother : item.marks c = 0 := if_neg (hl c)
    rw [hother, Nat.zero_add, (leaves_of_read? h hl hz).count_eq hc]
  · obtain ⟨d, rfl⟩ := not_forall_not.mp hl
    cases text with
    | nil => cases h
    | cons first more =>
      rw [Item.read?] at h
      split at h
      · next same =>
        cases h
        subst same
        rw [List.count_cons, Item.marks, Nat.add_comm]
        simp
      · cases h

/-- A pattern without names of zones reads as many of a character that is not plain as it has. -/
theorem count_of_readItems? (hc : isPlain c = false) {items : List Item} {parts found : Parts}
    (hz : .zoneName ∉ items) (h : readItems? items parts text = some found) :
    text.count c = Item.marksAll c items := by
  induction items generalizing parts text with
  | nil =>
    cases text with
    | nil => rfl
    | cons first more => cases h
  | cons item more ih =>
    rw [List.mem_cons, not_or] at hz
    obtain ⟨⟨next, rest⟩, hitem, h⟩ := Option.bind_eq_some_iff.mp h
    obtain ⟨taken, -, h⟩ := Option.bind_eq_some_iff.mp h
    rw [Item.count_of_read? hc (Ne.symm hz.1) hitem, ih hz.2 h, Item.marksAll]

end

/-- Two texts of dates of one pattern without names of zones have as many of a character that is not
plain. -/
theorem count_eq_of_readDate? {c : Char} (hc : isPlain c = false) {pattern text other : String}
    (hz : .zoneName ∉ items pattern.toList) {date another : Date}
    (h : readDate? pattern text = some date) (ho : readDate? pattern other = some another) :
    text.toList.count c = other.toList.count c := by
  obtain ⟨parts, hparts, -⟩ := Option.bind_eq_some_iff.mp h
  obtain ⟨found, hfound, -⟩ := Option.bind_eq_some_iff.mp ho
  rw [count_of_readItems? hc hz hparts, count_of_readItems? hc hz hfound]

end Calendar

end Rulebook
