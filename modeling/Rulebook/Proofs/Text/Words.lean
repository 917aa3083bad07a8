import Mathlib.Data.List.DropRight
import Rulebook.Text.Letter
import Rulebook.Proofs.Text.Escape

/-!
# Texts with blanks between words

Runs of blanks, and words with such runs between them. Blanks at the ends of a text count neither
for trimming nor for its words, and capitals change no blank; so the words of a spaced text are
found again, however they are spaced and in whatever case they are written.
-/

namespace Rulebook.Text

/-- A run of blanks, maybe an empty one. -/
structure Blanks where
  /-- The characters. -/
  text : List Char
  /-- All of them are blank. -/
  blank : ∀ c ∈ text, isBlank c = true

/-- The run without blanks. -/
def Blanks.none : Blanks := ⟨[], fun _ hc => absurd hc List.not_mem_nil⟩

/-- A run of at least one blank. -/
structure Gap extends Blanks where
  /-- There is a blank. -/
  ne_nil : text ≠ []

/-- One common blank as a gap. -/
def Gap.space : Gap where
  text := [' ']
  blank := List.forall_mem_singleton.mpr (by decide)
  ne_nil := List.cons_ne_nil _ _

/-- One common blank. -/
def Blanks.space : Blanks := Gap.space.toBlanks

/-- A tabulator as a gap. -/
def Gap.tab : Gap where
  text := ['\t']
  blank := List.forall_mem_singleton.mpr (by decide)
  ne_nil := List.cons_ne_nil _ _

/-- A text without blanks that is not empty. -/
def IsWord (word : List Char) : Prop := word ≠ [] ∧ ∀ c ∈ word, isBlank c = false

instance (word : List Char) : Decidable (IsWord word) :=
  @instDecidableAnd _ _ inferInstance (List.decidableBAll (fun c => isBlank c = false) word)

/-- Words with gaps between them. -/
structure Spaced where
  /-- The first word. -/
  first : List Char
  /-- The other words, each with the gap before it. -/
  more : List (Gap × List Char) := []

namespace Spaced

/-- The words. -/
def words (spaced : Spaced) : List (List Char) := spaced.first :: spaced.more.map Prod.snd

/-- The words and the gaps. -/
def text (spaced : Spaced) : List Char :=
  spaced.first ++ spaced.more.flatMap fun part => part.1.text ++ part.2

end Spaced

theorem Blanks.not_mem (blanks : Blanks) {c : Char} (h : isBlank c = false) : c ∉ blanks.text :=
  fun hm => Bool.false_ne_true (h.symm.trans (blanks.blank c hm))

theorem trimStart_blanks (front : Blanks) (text : List Char) :
    trimStart (front.text ++ text) = trimStart text :=
  List.dropWhile_append_of_pos front.blank

theorem trimStart_cons {c : Char} (h : isBlank c = false) (rest : List Char) :
    trimStart (c :: rest) = c :: rest :=
  List.dropWhile_cons_of_neg (Bool.eq_false_iff.mp h)

/-- Trailing blanks are dropped. -/
theorem trimEnd_blanks (text : List Char) (back : Blanks) :
    trimEnd (text ++ back.text) = trimEnd text := by
  rw [trimEnd, trimEnd, List.reverse_append]
  exact congrArg List.reverse
    (List.dropWhile_append_of_pos fun c hc => back.blank c (List.mem_reverse.mp hc))

/-- Trailing blanks are dropped only up to the last character that is none. -/
theorem trimEnd_append_cons (front back : List Char) {c : Char} (h : isBlank c = false) :
    trimEnd (front ++ c :: back) = front ++ c :: trimEnd back := by
  simp only [trimEnd, List.reverse_append, List.reverse_cons, List.append_assoc,
    List.singleton_append, List.dropWhile_append,
    List.dropWhile_cons_of_neg (Bool.eq_false_iff.mp h)]
  split
  · next hnil => simp [List.isEmpty_iff.mp hnil]
  · simp

/-- Blanks at the ends do not change the trimmed form. -/
theorem trim_blanks (front : Blanks) (text : List Char) (back : Blanks) :
    trim (front.text ++ (text ++ back.text)) = trim text := by
  rw [trim, trimStart_blanks, trimStart, List.dropWhile_append]
  split
  · next hnil =>
    have hback : back.text.dropWhile isBlank = [] := List.dropWhile_eq_nil_iff.mpr back.blank
    rw [trim, trimStart, List.isEmpty_iff.mp hnil, hback]
  · rw [trimEnd_blanks, trim, trimStart]

/-- A text is what trimming leaves of its end, with blanks behind. -/
theorem exists_trimEnd (text : List Char) : ∃ back : Blanks, text = trimEnd text ++ back.text := by
  have hback : ∀ c ∈ (text.reverse.takeWhile isBlank).reverse, isBlank c = true :=
    fun _ hc => List.mem_takeWhile_imp (List.mem_reverse.mp hc)
  refine ⟨⟨_, hback⟩, ?_⟩
  rw [trimEnd, ← List.reverse_append, List.takeWhile_append_dropWhile, List.reverse_reverse]

theorem exists_trimStart (text : List Char) :
    ∃ front : Blanks, text = front.text ++ trimStart text :=
  ⟨⟨text.takeWhile isBlank, fun _ => List.mem_takeWhile_imp⟩,
    List.takeWhile_append_dropWhile.symm⟩

/-- A text is its trimmed form with blanks at the ends. -/
theorem exists_trim (text : List Char) :
    ∃ front back : Blanks, text = front.text ++ (trim text ++ back.text) := by
  obtain ⟨front, hfront⟩ := exists_trimStart text
  obtain ⟨back, hback⟩ := exists_trimEnd (trimStart text)
  exact ⟨front, back, hfront.trans (congrArg (front.text ++ ·) hback)⟩

/-- Trailing blanks may be dropped before both ends are trimmed. -/
theorem trim_trimEnd (text : List Char) : trim (trimEnd text) = trim text := by
  obtain ⟨back, hback⟩ := exists_trimEnd text
  calc trim (trimEnd text) = trim (trimEnd text ++ back.text) :=
        (trim_blanks .none _ back).symm
    _ = trim text := by rw [← hback]

/-- Trimming leaves nothing of blanks and of nothing else. -/
theorem trim_eq_nil_iff {text : List Char} : trim text = [] ↔ ∀ c ∈ text, isBlank c = true := by
  constructor
  · intro hnil c hc
    obtain ⟨front, back, hsplit⟩ := exists_trim text
    rw [hnil, List.nil_append] at hsplit
    rw [hsplit] at hc
    exact (List.mem_append.mp hc).elim (front.blank c) (back.blank c)
  · intro hblank
    rw [trim, trimStart, List.dropWhile_eq_nil_iff.mpr hblank]
    rfl

/-- A string in which something is no blank is not blank. -/
theorem trimmed_ne_of_mem {text : String} {c : Char} (hc : isBlank c = false)
    (h : c ∈ text.toList) : trimmed text ≠ "" := by
  intro hblank
  have hnil : trim text.toList = [] := by
    rw [← String.toList_ofList (l := trim text.toList)]
    exact String.toList_eq_nil_iff.mpr hblank
  exact absurd (trim_eq_nil_iff.mp hnil c h) (Bool.eq_false_iff.mp hc)

/-- A text without blanks has none at its ends. -/
theorem hasOuterBlank_of_free {text : String} (h : ∀ c ∈ text.toList, isBlank c = false) :
    hasOuterBlank text = false := by
  refine Bool.or_eq_false_iff.mpr ⟨?_, ?_⟩
  · cases hc : text.toList.head? with
    | none => rfl
    | some c => exact h c (List.mem_of_head? hc)
  · cases hc : text.toList.getLast? with
    | none => rfl
    | some c => exact h c (List.mem_of_getLast? hc)

/-- A text that begins with a word begins with no blank. -/
theorem trimStart_word {word : List Char} (h : IsWord word) (rest : List Char) :
    trimStart (word ++ rest) = word ++ rest := by
  obtain ⟨hne, hfree⟩ := h
  cases word with
  | nil => exact absurd rfl hne
  | cons c more => exact trimStart_cons (hfree c List.mem_cons_self) (more ++ rest)

/-- Pieces are what splitting at the separators leaves. -/
theorem pieces_eq_splitOnP (isSeparator : Char → Bool) (text : List Char) :
    pieces isSeparator text = text.splitOnP isSeparator := by
  induction text with
  | nil => rfl
  | cons c rest ih =>
    rw [pieces, List.splitOnP_cons_eq_if_modifyHead, ih]
    split
    · rfl
    · cases hrest : rest.splitOnP isSeparator with
      | nil => exact absurd (ih.trans hrest) (pieces_ne_nil isSeparator rest)
      | cons piece more => rfl

/-- The pieces between single separators are found again. -/
theorem pieces_intercalate {texts : List (List Char)} {separator : Char} (hne : texts ≠ [])
    (h : ∀ text ∈ texts, separator ∉ text) :
    pieces (· == separator) ([separator].intercalate texts) = texts := by
  rw [pieces_eq_splitOnP]
  exact List.splitOn_intercalate separator h hne

/-- The words before a blank and those behind it. -/
theorem words_append_cons (front back : List Char) {c : Char} (h : isBlank c = true) :
    words (front ++ c :: back) = words front ++ words back := by
  simp only [words, pieces_eq_splitOnP, List.splitOnP_append_cons front back h, List.filter_append]

/-- There are no words in blanks. -/
theorem words_blanks (blanks : Blanks) : words blanks.text = [] := by
  obtain ⟨text, hblank⟩ := blanks
  induction text with
  | nil => rfl
  | cons c rest ih =>
    obtain ⟨hc, hrest⟩ := List.forall_mem_cons.mp hblank
    exact (words_append_cons [] rest hc).trans (ih hrest)

/-- Blanks before a text add no words. -/
theorem words_blanks_append (front : Blanks) (text : List Char) :
    words (front.text ++ text) = words text := by
  obtain ⟨front, hblank⟩ := front
  induction front with
  | nil => rfl
  | cons c rest ih =>
    obtain ⟨hc, hrest⟩ := List.forall_mem_cons.mp hblank
    exact (words_append_cons [] (rest ++ text) hc).trans (ih hrest)

/-- Blanks behind a text add no words. -/
theorem words_append_blanks (text : List Char) (back : Blanks) :
    words (text ++ back.text) = words text := by
  obtain ⟨back, hblank⟩ := back
  cases back with
  | nil => rw [List.append_nil]
  | cons c rest =>
    obtain ⟨hc, hrest⟩ := List.forall_mem_cons.mp hblank
    rw [words_append_cons text rest hc, words_blanks ⟨rest, hrest⟩, List.append_nil]

/-- Trimming takes no words away. -/
theorem words_trim (text : List Char) : words (trim text) = words text := by
  obtain ⟨front, back, hsplit⟩ := exists_trim text
  calc words (trim text) = words (front.text ++ (trim text ++ back.text)) := by
        rw [words_blanks_append, words_append_blanks]
    _ = words text := by rw [← hsplit]

theorem words_word {word : List Char} (h : IsWord word) : words word = [word] := by
  rw [words, pieces_eq_splitOnP, List.splitOnP_eq_singleton h.2]
  exact List.filter_cons_of_pos (by simpa using h.1)

/-- A word and a gap stand before the words that follow. -/
theorem words_append_gap {word : List Char} (h : IsWord word) (gap : Gap) (text : List Char) :
    words (word ++ (gap.text ++ text)) = word :: words text := by
  obtain ⟨⟨blanks, hblank⟩, hne⟩ := gap
  cases blanks with
  | nil => exact absurd rfl hne
  | cons c rest =>
    obtain ⟨hc, hrest⟩ := List.forall_mem_cons.mp hblank
    rw [List.cons_append, words_append_cons word (rest ++ text) hc, words_word h,
      words_blanks_append ⟨rest, hrest⟩]
    rfl

/-- The words of a spaced text are found again. -/
theorem words_spaced {spaced : Spaced} (h : ∀ word ∈ spaced.words, IsWord word) :
    words spaced.text = spaced.words := by
  obtain ⟨first, more⟩ := spaced
  unfold Spaced.words Spaced.text at *
  induction more generalizing first with
  | nil => simpa using words_word (h first List.mem_cons_self)
  | cons part more ih =>
    obtain ⟨hfirst, hmore⟩ := List.forall_mem_cons.mp h
    rw [List.flatMap_cons, List.append_assoc, words_append_gap hfirst, ih part.2 hmore]
    rfl

/-- A character of a spaced text that is no blank stands in one of the words. -/
theorem Spaced.exists_word {spaced : Spaced} {c : Char} (hc : c ∈ spaced.text)
    (hb : isBlank c = false) : ∃ word ∈ spaced.words, c ∈ word := by
  rcases List.mem_append.mp hc with hfirst | hmore
  · exact ⟨spaced.first, List.mem_cons_self, hfirst⟩
  · obtain ⟨part, hp, hpart⟩ := List.mem_flatMap.mp hmore
    rcases List.mem_append.mp hpart with hgap | hword
    · exact absurd hgap (part.1.not_mem hb)
    · exact ⟨part.2, List.mem_cons_of_mem _ (List.mem_map_of_mem hp), hword⟩

/-- Capitals change no blank and make none. -/
theorem isBlank_toUpper (c : Char) : isBlank c.toUpper = isBlank c := by
  by_cases h : c.toNat < 123
  · have hall : ∀ code ∈ List.range 123,
        isBlank (Char.ofNat code).toUpper = isBlank (Char.ofNat code) := by decide +kernel
    have hc := hall c.toNat (List.mem_range.mpr h)
    rwa [Char.ofNat_toNat] at hc
  · have hself : c.toUpper = c := dif_neg fun hlow => h (Nat.lt_succ_of_le hlow.2)
    rw [hself]

theorem isWord_of_upper {word : List Char} (h : IsWord (upper word)) : IsWord word :=
  ⟨fun hnil => h.1 (congrArg upper hnil), fun c hc =>
    (isBlank_toUpper c).symm.trans (h.2 c.toUpper (List.mem_map_of_mem hc))⟩

/-- Capitals change the pieces between blanks and not the cuts. -/
theorem pieces_upper (text : List Char) :
    pieces isBlank (upper text) = (pieces isBlank text).map upper := by
  induction text with
  | nil => rfl
  | cons c rest ih =>
    rw [upper, List.map_cons, pieces, pieces, isBlank_toUpper, ← upper, ih]
    split
    · rfl
    · cases pieces isBlank rest <;> rfl

theorem words_upper (text : List Char) : words (upper text) = (words text).map upper := by
  rw [words, pieces_upper, List.filter_map, words]
  congr 1
  exact List.filter_congr fun piece _ => by cases piece <;> rfl

end Rulebook.Text
