import Rulebook.Proofs.Operator.Finding

/-!
# What negates an operator

The words of a segment in which a phrase is found are those of the phrase and those around it. The
phrases that are always there negate exactly if the word `NOT` stands in them, but for the sign
`!=`, and the name of a custom operator is never this word. So it does not matter whether the phrase
or a word outside it negates: an operator is negated exactly if the word stands anywhere in its
segment, or if the operator is `!=`.
-/

namespace Rulebook

/-- A phrase is found where its words stand between the words before and behind them. -/
theorem split_of_findWords? {phrase segment : List (List Char)} {place : Nat}
    (h : findWords? phrase segment = some place) :
    ∃ before behind, segment = before ++ (phrase ++ behind) ∧ before.length = place := by
  induction segment generalizing place with
  | nil => cases h
  | cons word more ih =>
    rw [findWords?] at h
    split at h
    · next hhere =>
      cases h
      obtain ⟨behind, hbehind⟩ := List.isPrefixOf_iff_prefix.mp hhere.2
      exact ⟨[], behind, hbehind.symm, rfl⟩
    · obtain ⟨later, hlater, rfl⟩ := Option.map_eq_some_iff.mp h
      obtain ⟨before, behind, rfl, hplace⟩ := ih hlater
      have hlength : (word :: before).length = later + 1 := congrArg (· + 1) hplace
      exact ⟨word :: before, behind, rfl, hlength⟩

/-- The words of a segment are those of the phrase that is found in it and those around it. -/
theorem mem_segment_iff {phrase segment : List (List Char)} {place : Nat}
    (h : findWords? phrase segment = some place) (word : List Char) :
    word ∈ segment ↔ word ∈ phrase ∨ word ∈ wordsAround segment place phrase.length := by
  obtain ⟨before, behind, rfl, rfl⟩ := split_of_findWords? h
  have hbefore : (before ++ (phrase ++ behind)).take before.length = before := List.take_left
  have hbehind : (before ++ (phrase ++ behind)).drop (before.length + phrase.length) = behind := by
    rw [← List.drop_drop, List.drop_left, List.drop_left]
  rw [wordsAround, hbefore, hbehind, List.mem_append, List.mem_append, List.mem_append]
  exact or_left_comm

/-- The sign that negates without the word. -/
def notEqualSign : String := "!="

namespace Phrase

/-- A phrase negates exactly if the word stands in it or if it is the sign. -/
def NegatesAsWritten (phrase : Phrase) : Prop :=
  phrase.negated = true ↔ notWord ∈ phrase.words ∨ phrase.text = notEqualSign

/-- The phrases that are always there negate as they are written. -/
theorem negatesAsWritten_builtin {phrase : Phrase} (h : phrase ∈ builtin) :
    phrase.NegatesAsWritten := by
  have hall : ∀ phrase ∈ builtin,
      (phrase.negated = true ↔ notWord ∈ phrase.words ∨ phrase.text = notEqualSign) := by
    decide +kernel
  exact hall phrase h

/-- What is found of a phrase that negates as it is written is negated exactly if the word stands
anywhere in the segment or if the phrase is the sign. -/
theorem negated_of_findIn? {phrase : Phrase} (hp : phrase.NegatesAsWritten)
    {segment : List (List Char)} {found : FoundOperator} (h : phrase.findIn? segment = some found) :
    found.negated = true ↔ notWord ∈ segment ∨ found.text = notEqualSign := by
  obtain ⟨place, hplace, rfl⟩ := Option.map_eq_some_iff.mp h
  have haround : (wordsAround segment place phrase.words.length).contains notWord = true ↔
      notWord ∈ wordsAround segment place phrase.words.length := List.contains_iff_mem
  have hphrase : phrase.negated = true ↔ notWord ∈ phrase.words ∨ phrase.text = notEqualSign := hp
  rw [Bool.or_eq_true_iff, hphrase, haround, mem_segment_iff hplace]
  exact or_right_comm

end Phrase

namespace Registry

variable {registry : Registry} {segment : String} {found : FoundOperator}

/-- The name of a custom operator negates as it is written: it does not. -/
theorem IsKept.negatesAsWritten {name : String} (h : IsKept name) :
    (Phrase.custom name).NegatesAsWritten := by
  have hwords : ⟨"NOT LT", .limit .lt, true⟩ ∈ Phrase.builtin := by decide
  have hsign : ⟨notEqualSign, .basic .notEqual, true⟩ ∈ Phrase.builtin := by decide
  have hnot : name.toList ≠ notWord := by
    intro hname
    refine h.free _ hwords ?_
    rw [hname]
    decide +kernel
  have hother : name ≠ notEqualSign := by
    rintro rfl
    exact h.free _ hsign (by decide +kernel)
  refine iff_of_false nofun ?_
  rw [h.words_custom, List.mem_singleton, not_or]
  exact ⟨Ne.symm hnot, hother⟩

/-- All phrases of a registry that was built negate as they are written. -/
theorem Made.negatesAsWritten (hm : registry.Made) {phrase : Phrase}
    (hp : phrase ∈ registry.phrases) : phrase.NegatesAsWritten := by
  rcases List.mem_append.mp hp with hcustom | hbuiltin
  · obtain ⟨name, hn, rfl⟩ := List.mem_map.mp hcustom
    exact (hm.isKept hn).negatesAsWritten
  · exact Phrase.negatesAsWritten_builtin hbuiltin

/-- The operator that is found in a segment is negated exactly if the word `NOT` in any case is one
of the words of the segment, wherever it stands, or if the operator is the sign `!=`. -/
theorem negated_of_findOperator? (hbuilt : registry.Built)
    (h : findOperator? segment registry.names = some found) :
    found.negated = true ↔
      (∃ word ∈ Text.words segment.toList, Text.upper word = notWord) ∨ found.text = "!=" := by
  obtain ⟨phrase, hp, hfound⟩ := List.exists_of_findSome?_eq_some h
  have hnegated := Phrase.negated_of_findIn? (hbuilt.made.negatesAsWritten hp) hfound
  rw [Text.words_upper, List.mem_map] at hnegated
  exact hnegated

/-- The word negates a custom operator from behind and in small letters, the sign negates without
it, and a name that holds the word as a part does not. -/
theorem negated_of_findOperator?_mask : ∃ registry : Registry, registry.Built ∧
    registry.names = ["MASK", "KNOT"] ∧
      findOperator? "so MASK nOt" registry.names = some ⟨.custom "MASK", "MASK", true⟩ ∧
      (∃ word ∈ Text.words "so MASK nOt".toList, Text.upper word = notWord) ∧
      findOperator? "IN !=" registry.names = some ⟨.basic .notEqual, "!=", true⟩ ∧
      findOperator? "knot" registry.names = some ⟨.custom "KNOT", "KNOT", false⟩ ∧
      ¬ ∃ word ∈ Text.words "knot".toList, Text.upper word = notWord := by
  let copy : Operation := fun text _ _ _ => text
  have hmask : Registry.empty.register "mask" copy = .ok ⟨[("MASK", copy)]⟩ := rfl
  have hknot : Registry.register ⟨[("MASK", copy)]⟩ " knot" copy =
      .ok ⟨[("MASK", copy), ("KNOT", copy)]⟩ := rfl
  have hbuilt : Built ⟨[("MASK", copy), ("KNOT", copy)]⟩ := .register (.register .empty hmask) hknot
  have hbehind : findOperator? "so MASK nOt" ["MASK", "KNOT"] =
      some ⟨.custom "MASK", "MASK", true⟩ := by decide +kernel
  have hsign : findOperator? "IN !=" ["MASK", "KNOT"] =
      some ⟨.basic .notEqual, "!=", true⟩ := by decide +kernel
  have hpart : findOperator? "knot" ["MASK", "KNOT"] =
      some ⟨.custom "KNOT", "KNOT", false⟩ := by decide +kernel
  refine ⟨_, hbuilt, rfl, hbehind, ?_, hsign, hpart, fun hword => ?_⟩
  · exact ((negated_of_findOperator? hbuilt hbehind).mp rfl).resolve_right (by decide)
  · exact absurd ((negated_of_findOperator? hbuilt hpart).mpr (.inl hword)) (by decide)

end Registry

end Rulebook
