import Mathlib.Data.List.DropRight
import Rulebook.Text.Reference
import Rulebook.Text.Blank

/-!
# Written text and the blanks around it

Documents hold texts in their written form, and readers drop the blanks around a text before they
resolve its references. No blank is one of the characters that are written as references, so blanks
may be dropped before or after writing. The written form begins no tag and ends no quoted value.
-/

namespace Rulebook.Text

/-- The text begins or ends with a blank. -/
def hasOuterBlank (text : String) : Bool :=
  text.toList.head?.any isBlank || text.toList.getLast?.any isBlank

theorem trimEnd_eq_rdropWhile (text : List Char) : trimEnd text = text.rdropWhile isBlank := rfl

/-- A text without a blank in front loses nothing in front. -/
theorem trimStart_eq_self {text : List Char} (h : text.head?.any isBlank = false) :
    trimStart text = text := by
  cases text with
  | nil => rfl
  | cons c rest => exact List.dropWhile_cons_of_neg (by simpa using h)

/-- A text without a blank behind loses nothing behind. -/
theorem trimEnd_eq_self {text : List Char} (h : text.getLast?.any isBlank = false) :
    trimEnd text = text := by
  rw [trimEnd_eq_rdropWhile, List.rdropWhile_eq_self_iff]
  intro hl
  rw [List.getLast?_eq_some_getLast hl] at h
  simpa using h

/-- What is left after the leading blanks does not begin with one. -/
theorem head?_trimStart (text : List Char) : (trimStart text).head?.any isBlank = false := by
  have hn := List.head?_dropWhile_not isBlank text
  unfold trimStart
  cases hd : (text.dropWhile isBlank).head? with
  | none => rfl
  | some c =>
    rw [hd] at hn
    exact hn

/-- Trailing blanks do not decide how a text begins. -/
theorem head?_trimEnd {text : List Char} (h : text.head?.any isBlank = false) :
    (trimEnd text).head?.any isBlank = false := by
  obtain ⟨tail, ht⟩ := List.rdropWhile_prefix isBlank text
  rw [←trimEnd_eq_rdropWhile] at ht
  cases hs : trimEnd text with
  | nil => rfl
  | cons c rest =>
    rw [hs] at ht
    rw [←ht] at h
    simpa using h

theorem trim_trim (text : List Char) : trim (trim text) = trim text := by
  have hs : trimStart (trim text) = trim text :=
    trimStart_eq_self (head?_trimEnd (head?_trimStart text))
  rw [trim, hs, trim, trimEnd_eq_rdropWhile, trimEnd_eq_rdropWhile, List.rdropWhile_idempotent]

theorem trimmed_trimmed (text : String) : trimmed (trimmed text) = trimmed text := by
  simp only [trimmed, String.toList_ofList, trim_trim]

theorem trimmed_eq_self {text : String} (h : hasOuterBlank text = false) : trimmed text = text := by
  obtain ⟨hf, hl⟩ := Bool.or_eq_false_iff.mp h
  rw [trimmed, trim, trimStart_eq_self hf, trimEnd_eq_self hl, String.ofList_toList]

/-- What is left before the trailing blanks does not end with one. -/
theorem getLast?_trimEnd (text : List Char) : (trimEnd text).getLast?.any isBlank = false := by
  have hhead : (text.reverse.dropWhile isBlank).head?.any isBlank = false :=
    head?_trimStart text.reverse
  rw [trimEnd, List.getLast?_reverse]
  exact hhead

/-- A trimmed string neither begins nor ends with a blank. -/
theorem hasOuterBlank_trimmed (text : String) : hasOuterBlank (trimmed text) = false := by
  rw [hasOuterBlank, trimmed, String.toList_ofList, Bool.or_eq_false_iff]
  exact ⟨head?_trimEnd (head?_trimStart text.toList), getLast?_trimEnd _⟩

/-- Trimming changes exactly the strings that begin or end with a blank. -/
theorem map_trimmed_eq_self_iff {text : Option String} :
    text.map trimmed = text ↔ text.any hasOuterBlank = false := by
  cases text with
  | none => exact ⟨fun _ => rfl, fun _ => rfl⟩
  | some text =>
    refine ⟨fun hsame => ?_, fun hfree => congrArg some (trimmed_eq_self hfree)⟩
    have hfree := hasOuterBlank_trimmed text
    rw [Option.some.inj hsame] at hfree
    exact hfree

theorem mem_of_mem_trim {text : List Char} {c : Char} (h : c ∈ trim text) : c ∈ text :=
  (List.dropWhile_sublist isBlank).subset ((List.rdropWhile_prefix isBlank _).subset h)

/-- A blank is written as it is. -/
theorem escapeChar_of_isBlank {c : Char} (h : isBlank c = true) : escapeChar c = [c] := by
  unfold escapeChar
  split_ifs with h0 h1 h2 h3 h4
  · subst h0; exact absurd h (by decide)
  · subst h1; exact absurd h (by decide)
  · subst h2; exact absurd h (by decide)
  · subst h3; exact absurd h (by decide)
  · subst h4; exact absurd h (by decide)
  · rfl

/-- The written form of a character that is no blank neither begins nor ends with one. -/
theorem escapeChar_ends {c : Char} (h : isBlank c = false) :
    (escapeChar c).head?.any isBlank = false ∧ (escapeChar c).getLast?.any isBlank = false := by
  unfold escapeChar
  split_ifs
  · decide
  · decide
  · decide
  · decide
  · decide
  · exact ⟨by simpa using h, by simpa using h⟩

theorem escapeChar_ne_nil (c : Char) : escapeChar c ≠ [] := by
  unfold escapeChar
  split_ifs <;> simp

/-- Leading blanks may be dropped before or after writing. -/
theorem trimStart_escape (text : List Char) :
    trimStart (escape text) = escape (trimStart text) := by
  induction text with
  | nil => rfl
  | cons c rest ih =>
    by_cases hc : isBlank c = true
    · have hw : escape (c :: rest) = c :: escape rest := by
        rw [escape, List.flatMap_cons, escapeChar_of_isBlank hc]
        rfl
      rw [hw, trimStart, trimStart, List.dropWhile_cons_of_pos hc, List.dropWhile_cons_of_pos hc]
      exact ih
    · have hb : isBlank c = false := Bool.eq_false_iff.mpr hc
      have hk : trimStart (c :: rest) = c :: rest := List.dropWhile_cons_of_neg hc
      have hh : (escape (c :: rest)).head?.any isBlank = false := by
        rw [escape, List.flatMap_cons, List.head?_append_of_ne_nil _ (escapeChar_ne_nil c)]
        exact (escapeChar_ends hb).1
      rw [hk, trimStart_eq_self hh]

/-- Trailing blanks may be dropped before or after writing. -/
theorem trimEnd_escape (text : List Char) : trimEnd (escape text) = escape (trimEnd text) := by
  induction text using List.reverseRecOn with
  | nil => rfl
  | append_singleton rest c ih =>
    have hw : escape (rest ++ [c]) = escape rest ++ escapeChar c := by
      simp only [escape, List.flatMap_append, List.flatMap_cons, List.flatMap_nil, List.append_nil]
    by_cases hc : isBlank c = true
    · rw [hw, escapeChar_of_isBlank hc, trimEnd_eq_rdropWhile, trimEnd_eq_rdropWhile,
        List.rdropWhile_concat_pos _ _ _ hc, List.rdropWhile_concat_pos _ _ _ hc]
      exact ih
    · have hb : isBlank c = false := Bool.eq_false_iff.mpr hc
      have hk : trimEnd (rest ++ [c]) = rest ++ [c] := List.rdropWhile_concat_neg _ _ _ hc
      have hh : (escape (rest ++ [c])).getLast?.any isBlank = false := by
        rw [hw, List.getLast?_append_of_ne_nil _ (escapeChar_ne_nil c)]
        exact (escapeChar_ends hb).2
      rw [hk, trimEnd_eq_self hh]

/-- The blanks around a text may be dropped before or after writing. -/
theorem trim_escape (text : List Char) : trim (escape text) = escape (trim text) := by
  rw [trim, trimStart_escape, trimEnd_escape, trim]

/-- The written form of a text holds no character that begins or ends a tag or a quoted value. -/
theorem not_mem_escape {text : List Char} {c : Char} (h : c ∈ ['<', '>', '\'', '"']) :
    c ∉ escape text := by
  intro hm
  obtain ⟨d, -, hd⟩ := List.mem_flatMap.mp hm
  unfold escapeChar at hd
  split_ifs at hd
  all_goals simp only [List.mem_cons, List.not_mem_nil, or_false] at h hd
  all_goals grind

/-- Character data in its written form begins no tag. -/
theorem lt_not_mem_escapeMarkup (text : List Char) : '<' ∉ escapeMarkup text := by
  intro hm
  obtain ⟨d, -, hd⟩ := List.mem_flatMap.mp hm
  split_ifs at hd with hq
  · simp only [List.mem_singleton] at hd
    subst hd
    exact absurd hq (by decide)
  · have he : '<' ∈ escape [d] := by
      simpa [escape] using hd
    exact not_mem_escape (by decide) he

/-- Without ampersands there are no references. -/
theorem unescape_of_free {text : List Char} (h : '&' ∉ text) : unescape text = .ok text := by
  have hfrom : ∀ stop position, unescapeFrom stop position none text = .ok text := by
    induction text with
    | nil => exact fun _ _ => rfl
    | cons c rest ih =>
      intro stop position
      obtain ⟨hc, hrest⟩ := List.ne_and_not_mem_of_not_mem_cons h
      rw [unescapeFrom, if_neg hc.symm, ih hrest]
      rfl
  exact hfrom _ _

end Rulebook.Text
