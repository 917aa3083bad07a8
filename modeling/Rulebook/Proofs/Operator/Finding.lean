import Rulebook.Operator.Phrase
import Rulebook.Proofs.Operator.Registration
import Rulebook.Proofs.Text.Words

/-!
# Finding operators

A phrase that makes up the whole segment of a rule is the one that is found. The longer phrases are
tried before the words they contain, and the name of a custom operator is a single word that stands
in no other phrase, so no phrase that is tried earlier is found in its place.
-/

namespace Rulebook

/-- The words of a phrase that is found stand in the segment. -/
theorem mem_of_findWords? {phrase segment : List (List Char)} {place : Nat}
    (h : findWords? phrase segment = some place) {word : List Char} (hw : word ∈ phrase) :
    word ∈ segment := by
  induction segment generalizing place with
  | nil => cases h
  | cons first more ih =>
    rw [findWords?] at h
    split at h
    · next hhere => exact (List.isPrefixOf_iff_prefix.mp hhere.2).subset hw
    · obtain ⟨later, hlater, -⟩ := Option.map_eq_some_iff.mp h
      exact List.mem_cons_of_mem first (ih hlater)

/-- A phrase is found at the front of itself. -/
theorem findWords?_self {phrase : List (List Char)} (h : phrase ≠ []) :
    findWords? phrase phrase = some 0 := by
  cases phrase with
  | nil => exact absurd rfl h
  | cons word more =>
    exact if_pos ⟨h, List.isPrefixOf_iff_prefix.mpr (List.prefix_refl _)⟩

namespace Phrase

/-- What is found of a phrase that makes up the segment. -/
def found (phrase : Phrase) : FoundOperator := ⟨phrase.token, phrase.text, phrase.negated⟩

theorem findIn?_words {phrase : Phrase} (h : phrase.words ≠ []) :
    phrase.findIn? phrase.words = some phrase.found := by
  rw [findIn?, findWords?_self h]
  simp [wordsAround, found]

/-- No phrase is found where one of its words is missing. -/
theorem findIn?_eq_none {phrase : Phrase} {segment : List (List Char)} (word : List Char)
    (hw : word ∈ phrase.words) (hs : word ∉ segment) : phrase.findIn? segment = none := by
  rw [findIn?, Option.map_eq_none_iff]
  cases h : findWords? phrase.words segment with
  | none => rfl
  | some place => exact absurd (mem_of_findWords? h hw) hs

/-- Among the phrases that are always there, each one is found in its own words. -/
theorem findSome?_builtin {phrase : Phrase} (h : phrase ∈ builtin) :
    (builtin.findSome? fun other => other.findIn? phrase.words) = some phrase.found := by
  have hall : ∀ phrase ∈ builtin,
      (builtin.findSome? fun other => other.findIn? phrase.words) = some phrase.found := by
    decide +kernel
  exact hall phrase h

end Phrase

namespace Registry

variable {registry : Registry} {name : String}

/-- What registering makes of the empty registry. -/
inductive Built : Registry → Prop where
  /-- Nothing was registered. -/
  | empty : Built .empty
  /-- A function was registered under a name. -/
  | register {registry next : Registry} {name : String} {operation : Operation}
    (built : Built registry) (h : registry.register name operation = .ok next) : Built next

theorem Built.made (h : Built registry) : registry.Made := by
  induction h with
  | empty => exact made_empty
  | register _ h ih => exact ih.register h

/-- What a kept name is. -/
structure IsKept (name : String) : Prop where
  /-- It is a word. -/
  word : Text.IsWord name.toList
  /-- It is written in capitals. -/
  capitals : Text.capitals name = name
  /-- It stands in no phrase that is always there. -/
  free : ∀ phrase ∈ Phrase.builtin, name.toList ∉ phrase.words

/-- The names that may be registered are kept as words in capitals that are not reserved. -/
theorem isKept_of_admits (h : admits name = true) : IsKept (normalName name) := by
  simp only [admits, Bool.not_eq_eq_eq_not, Bool.not_true, Bool.or_eq_false_iff,
    List.isEmpty_eq_false_iff, List.any_eq_false, Bool.not_eq_true] at h
  obtain ⟨⟨hne, hblank⟩, hreserved⟩ := h
  have hcapitals : Text.capitals (normalName name) = normalName name := capitals_normalName name
  refine ⟨⟨hne, hblank⟩, hcapitals, fun phrase hp hm => ?_⟩
  rw [isReserved, Text.trimmed_eq_self (Text.hasOuterBlank_of_free hblank), hcapitals,
    List.any_eq_false] at hreserved
  exact hreserved phrase hp (Bool.or_eq_true_iff.mpr (.inr (List.contains_iff_mem.mpr hm)))

/-- Every name of a registry that registrations made is a word that is not reserved. -/
theorem Made.isKept (hm : registry.Made) (hn : name ∈ registry.names) : IsKept name := by
  obtain ⟨given, hadmits, rfl⟩ := hm name hn
  exact isKept_of_admits hadmits

theorem IsKept.words_custom (h : IsKept name) : (Phrase.custom name).words = [name.toList] :=
  Text.words_word h.word

/-- Among custom names each one is found where it makes up the segment. -/
theorem findSome?_custom {names : List String} (hall : ∀ name ∈ names, IsKept name)
    (hn : name ∈ names) :
    ((names.map Phrase.custom).findSome? fun phrase => phrase.findIn? [name.toList]) =
      some (Phrase.custom name).found := by
  induction names with
  | nil => cases hn
  | cons first more ih =>
    obtain ⟨hfirst, hmore⟩ := List.forall_mem_cons.mp hall
    rw [List.map_cons, List.findSome?_cons]
    by_cases hs : first = name
    · subst hs
      rw [← hfirst.words_custom, Phrase.findIn?_words]
      rw [hfirst.words_custom]
      exact List.cons_ne_nil _ _
    · have hnone : (Phrase.custom first).findIn? [name.toList] = none := by
        refine Phrase.findIn?_eq_none first.toList ?_ ?_
        · rw [hfirst.words_custom]
          exact List.mem_singleton_self _
        · rw [List.mem_singleton, String.toList_inj]
          exact hs
      rw [hnone]
      exact ih hmore ((List.mem_cons.mp hn).resolve_left (Ne.symm hs))

/-- The phrases that a registry knows. -/
def phrases (registry : Registry) : List Phrase :=
  registry.names.map Phrase.custom ++ Phrase.builtin

/-- A phrase that a registry knows is made of words. -/
theorem isWord_of_mem_words (hm : registry.Made) {phrase : Phrase} (hp : phrase ∈ registry.phrases)
    {word : List Char} (hw : word ∈ phrase.words) : Text.IsWord word := by
  rcases List.mem_append.mp hp with hcustom | hbuiltin
  · obtain ⟨name, hn, rfl⟩ := List.mem_map.mp hcustom
    rw [(hm.isKept hn).words_custom, List.mem_singleton] at hw
    exact hw ▸ (hm.isKept hn).word
  · have hall : ∀ phrase ∈ Phrase.builtin, ∀ word ∈ phrase.words, Text.IsWord word := by
      decide +kernel
    exact hall phrase hbuiltin word hw

/-- No two phrases that a registry knows have the same text: the word of a custom name would stand
in a phrase that is always there. -/
theorem Made.eq_of_text_eq (hm : registry.Made) {phrase other : Phrase}
    (hp : phrase ∈ registry.phrases) (ho : other ∈ registry.phrases)
    (h : other.text = phrase.text) : other = phrase := by
  have happart : ∀ name ∈ registry.names, ∀ phrase ∈ Phrase.builtin, phrase.text ≠ name := by
    rintro name hn phrase hp rfl
    refine (hm.isKept hn).free phrase hp ?_
    rw [Phrase.words, Text.words_word (hm.isKept hn).word]
    exact List.mem_singleton_self _
  have hbuiltin : ∀ phrase ∈ Phrase.builtin, ∀ other ∈ Phrase.builtin,
      other.text = phrase.text → other = phrase := by decide
  rcases List.mem_append.mp hp with hp | hp <;> rcases List.mem_append.mp ho with ho | ho
  · obtain ⟨name, -, rfl⟩ := List.mem_map.mp hp
    obtain ⟨_, -, rfl⟩ := List.mem_map.mp ho
    exact congrArg Phrase.custom h
  · obtain ⟨name, hn, rfl⟩ := List.mem_map.mp hp
    exact absurd h (happart name hn other ho)
  · obtain ⟨name, hn, rfl⟩ := List.mem_map.mp ho
    exact absurd h.symm (happart name hn phrase hp)
  · exact hbuiltin phrase hp other ho h

/-- The phrase whose words make up the segment is the one that is found. -/
theorem findOperator?_of_words (hm : registry.Made) {phrase : Phrase}
    (hp : phrase ∈ registry.phrases) {segment : String}
    (hs : Text.words (Text.upper segment.toList) = phrase.words) :
    findOperator? segment registry.names = some phrase.found := by
  have hkept : ∀ name ∈ registry.names, IsKept name := fun _ => hm.isKept
  rw [findOperator?, hs, List.findSome?_append]
  rcases List.mem_append.mp hp with hcustom | hbuiltin
  · obtain ⟨name, hn, rfl⟩ := List.mem_map.mp hcustom
    rw [(hkept name hn).words_custom, findSome?_custom hkept hn]
    rfl
  · have hnone : ((registry.names.map Phrase.custom).findSome? fun other =>
        other.findIn? phrase.words) = none := by
      rw [List.findSome?_eq_none_iff]
      intro other ho
      obtain ⟨name, hn, rfl⟩ := List.mem_map.mp ho
      refine Phrase.findIn?_eq_none name.toList ?_ ((hkept name hn).free phrase hbuiltin)
      rw [(hkept name hn).words_custom]
      exact List.mem_singleton_self _
    rw [hnone, Phrase.findSome?_builtin hbuiltin]
    rfl

end Registry

end Rulebook
