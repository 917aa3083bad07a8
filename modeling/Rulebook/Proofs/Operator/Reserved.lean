import Rulebook.Proofs.Expression.Rereading

/-!
# Reserved words

Requests to register functions are served one after the other, and a name that is refused changes
nothing. Whatever is asked for, the names that are kept are different words in capitals which are
not reserved, in the order in which they were first accepted. So no name is found among reserved
words: a segment that is made of them has the operator that it has without custom operators, and a
rule with such a segment is read as it is read without them.
-/

namespace Rulebook

/-- One more item behind a list is left out of the different ones if it is there already. -/
theorem eraseDups_concat {α : Type} [BEq α] [LawfulBEq α] (before : List α) (last : α) :
    (before ++ [last]).eraseDups =
      if last ∈ before then before.eraseDups else before.eraseDups ++ [last] := by
  rw [List.eraseDups_append]
  split
  · next hm => simp [List.removeAll, hm]
  · next hm => simp [List.removeAll, hm, List.eraseDups_cons]

/-- The different items of a list are different. -/
theorem nodup_eraseDups {α : Type} [BEq α] [LawfulBEq α] (items : List α) :
    items.eraseDups.Nodup := by
  induction items using List.reverseRecOn with
  | nil => exact .nil
  | append_singleton before last ih =>
    rw [eraseDups_concat]
    split
    · exact ih
    · next hm =>
      have hlast : last ∉ before.eraseDups := fun hl => hm (List.mem_eraseDups.mp hl)
      exact List.nodup_append_comm.mp (List.nodup_cons.mpr ⟨hlast, ih⟩)

namespace Registry

variable {registry : Registry} {name : String} {operation : Operation}

/-- Registers a function if the name may be registered. -/
def attempt (registry : Registry) (name : String) (operation : Operation) : Registry :=
  match registry.register name operation with
  | .ok next => next
  | .error _ => registry

/-- The registry after requests to register functions under names, one after the other. -/
def ofRequests (requests : List (String × Operation)) : Registry :=
  requests.foldl (fun registry request => registry.attempt request.1 request.2) .empty

theorem ofRequests_concat (before : List (String × Operation)) (last : String × Operation) :
    ofRequests (before ++ [last]) = (ofRequests before).attempt last.1 last.2 :=
  List.foldl_concat ..

/-- A request keeps it that a registry was built. -/
theorem Built.attempt (h : registry.Built) (name : String) (operation : Operation) :
    (registry.attempt name operation).Built := by
  unfold Registry.attempt
  split
  · next next hnext => exact .register h hnext
  · exact h

/-- Requests build a registry. -/
theorem built_ofRequests (requests : List (String × Operation)) : (ofRequests requests).Built := by
  induction requests using List.reverseRecOn with
  | nil => exact .empty
  | append_singleton before last ih =>
    rw [ofRequests_concat]
    exact ih.attempt last.1 last.2

/-- A request adds the kept form of the name if it may be registered and is new. -/
theorem names_attempt (registry : Registry) (name : String) (operation : Operation) :
    (registry.attempt name operation).names =
      if admits name = true ∧ normalName name ∉ registry.names then
        registry.names ++ [normalName name]
      else registry.names := by
  unfold attempt register
  by_cases hadmits : admits name = true
  · have hnames := map_fst_bind (normalName name) operation registry.entries
    simp only [hadmits, if_true, true_and, names] at hnames ⊢
    rw [hnames, ite_not]
  · simp [hadmits]

/-- The names that requests ask for and that may be registered, in their kept form. -/
def acceptedNames (requests : List (String × Operation)) : List String :=
  ((requests.map Prod.fst).filter admits).map normalName

/-- The names are those that were accepted, each at the place where it was accepted first. -/
theorem names_ofRequests (requests : List (String × Operation)) :
    (ofRequests requests).names = (acceptedNames requests).eraseDups := by
  induction requests using List.reverseRecOn with
  | nil => rfl
  | append_singleton before last ih =>
    rw [ofRequests_concat, names_attempt, ih]
    by_cases hadmits : admits last.1 = true
    · have haccepted : acceptedNames (before ++ [last]) =
          acceptedNames before ++ [normalName last.1] := by
        simp [acceptedNames, hadmits]
      rw [haccepted, eraseDups_concat]
      simp only [hadmits, true_and, List.mem_eraseDups, ite_not]
    · have haccepted : acceptedNames (before ++ [last]) = acceptedNames before := by
        simp [acceptedNames, hadmits]
      rw [haccepted, if_neg fun h => hadmits h.1]

/-- What kept names look like: words in capitals that are not reserved. -/
structure IsProper (name : String) : Prop where
  /-- The name is not empty. -/
  ne_empty : name ≠ ""
  /-- The name has no blanks. -/
  free : ∀ c ∈ name.toList, Text.isBlank c = false
  /-- The name has no letters from `a` to `z`. -/
  capital : ∀ c ∈ name.toList, ¬ ('a' ≤ c ∧ c ≤ 'z')
  /-- The name is not reserved. -/
  unreserved : isReserved name = false

/-- A letter from `a` to `z` is not its own capital. -/
theorem toUpper_ne {c : Char} (h : 'a' ≤ c ∧ c ≤ 'z') : c.toUpper ≠ c := by
  have hrange : 97 ≤ c.toNat ∧ c.toNat ≤ 122 := h
  have hall : ∀ code ∈ List.range 123, 97 ≤ code →
      (Char.ofNat code).toUpper ≠ Char.ofNat code := by decide +kernel
  have hc := hall c.toNat (List.mem_range.mpr (Nat.lt_succ_of_le hrange.2)) hrange.1
  rwa [Char.ofNat_toNat] at hc

/-- In a text that is its own form in capitals every character is its own capital. -/
theorem toUpper_of_capitals (h : Text.capitals name = name) {c : Char} (hc : c ∈ name.toList) :
    c.toUpper = c := by
  have hupper : Text.upper name.toList = name.toList := Text.upper_of_capitals h
  have hsame : ∀ c ∈ name.toList, c.toUpper = id c :=
    List.map_inj_left.mp (hupper.trans (List.map_id _).symm)
  exact hsame c hc

/-- The kept form of a name that may be registered is proper. -/
theorem isProper_of_admits (h : admits name = true) : IsProper (normalName name) := by
  have hkept := isKept_of_admits h
  refine ⟨fun hempty => ?_, hkept.word.2, fun c hc hsmall => ?_, ?_⟩
  · refine hkept.word.1 ?_
    rw [hempty]
    rfl
  · exact toUpper_ne hsmall (toUpper_of_capitals hkept.capitals hc)
  · simp only [admits, Bool.not_eq_eq_eq_not, Bool.not_true, Bool.or_eq_false_iff] at h
    exact h.2

/-- Every name of a registry that registrations made is proper. -/
theorem Made.isProper (hm : registry.Made) (hn : name ∈ registry.names) : IsProper name := by
  obtain ⟨given, hadmits, rfl⟩ := hm name hn
  exact isProper_of_admits hadmits

/-- Capitals do not change whether a word is reserved. -/
theorem isReserved_capitals {word : String} (h : Text.IsWord word.toList) :
    isReserved (Text.capitals word) = isReserved word := by
  have hword : Text.trimmed word = word := Text.trimmed_eq_self (Text.hasOuterBlank_of_free h.2)
  have hfree : ∀ c ∈ (Text.capitals word).toList, Text.isBlank c = false := by
    intro c hc
    rw [Text.capitals, String.toList_ofList] at hc
    obtain ⟨given, hg, rfl⟩ := List.mem_map.mp hc
    rw [Text.isBlank_toUpper]
    exact h.2 given hg
  have hcapitals : Text.trimmed (Text.capitals word) = Text.capitals word :=
    Text.trimmed_eq_self (Text.hasOuterBlank_of_free hfree)
  rw [isReserved, isReserved, hword, hcapitals, Text.capitals_capitals]

/-- No custom operator is found among reserved words. -/
theorem IsProper.findIn?_eq_none (hn : IsProper name) {segment : List Char}
    (hs : ∀ word ∈ Text.words segment, isReserved (String.ofList word) = true) :
    (Phrase.custom name).findIn? (Text.words (Text.upper segment)) = none := by
  have hword : Text.IsWord name.toList :=
    ⟨fun hnil => hn.ne_empty (String.toList_eq_nil_iff.mp hnil), hn.free⟩
  have hphrase : (Phrase.custom name).words = [name.toList] := Text.words_word hword
  refine Phrase.findIn?_eq_none name.toList (hphrase ▸ List.mem_singleton_self _) fun hm => ?_
  rw [Text.words_upper] at hm
  obtain ⟨given, hg, hname⟩ := List.mem_map.mp hm
  have hgiven : Text.IsWord (String.ofList given).toList := by
    rw [String.toList_ofList]
    exact Text.isWord_of_upper (hname ▸ hword)
  have hcapitals : Text.capitals (String.ofList given) = name := by
    rw [Text.capitals, String.toList_ofList, hname, String.ofList_toList]
  have hreserved := isReserved_capitals hgiven
  rw [hcapitals, hs given hg, hn.unreserved] at hreserved
  cases hreserved

/-- The operator of a segment of reserved words is the one without custom operators. -/
theorem Made.findOperator?_eq (hm : registry.Made) {segment : String}
    (hs : ∀ word ∈ Text.words segment.toList, isReserved (String.ofList word) = true) :
    findOperator? segment registry.names = findOperator? segment [] := by
  have hnone : ((registry.names.map Phrase.custom).findSome? fun phrase =>
      phrase.findIn? (Text.words (Text.upper segment.toList))) = none := by
    rw [List.findSome?_eq_none_iff]
    intro phrase hp
    obtain ⟨name, hn, rfl⟩ := List.mem_map.mp hp
    exact (hm.isProper hn).findIn?_eq_none hs
  rw [findOperator?, findOperator?, List.findSome?_append, hnone]
  rfl

end Registry

namespace RuleReader

variable (reader : RuleReader) (registry : Registry)

/-- The clause of an operator is read alike with other custom operators. -/
theorem readClause_withRegistry (expression : String) (operands : List (List Char))
    (token : OperatorToken) :
    { reader with registry }.readClause expression operands token =
      reader.readClause expression operands token := by
  have hc : { reader with registry }.catalog = reader.catalog := rfl
  cases token with
  | custom name => simp only [readClause, readOperands_eq hc]
  | limit comparison => simp only [readClause, readOperand_eq hc, numericRange]
  | date comparison => simp only [readClause, readDateOperand_eq hc rfl]
  | basic operator => exact readBasic_eq hc expression operands operator

/-- The custom operators are only looked for in the segment of a rule: a rule is read alike with
others if the same operator is found there. -/
theorem read_withRegistry {expression : String}
    (hf : ∀ shape, Shape.ofText? expression.toList = some shape →
      findOperator? (String.ofList shape.segment) registry.names =
        findOperator? (String.ofList shape.segment) reader.registry.names)
    (id : UInt32) (label : Option String) :
    { reader with registry }.read expression id label = reader.read expression id label := by
  have hc : { reader with registry }.catalog = reader.catalog := rfl
  unfold read
  cases hs : Shape.ofText? expression.toList with
  | none => rfl
  | some shape => simp only [hf shape hs, readLink_eq hc, readClause_withRegistry]

end RuleReader

namespace Registry

/-- Whatever was asked to be registered, the names are the accepted ones in the order in which they
were accepted first; they are different words in capitals that are not reserved. A segment of
reserved words has the operator that it has without them, and a rule with such a segment is read, or
refused, as it is without them. -/
theorem reserved_ofRequests (requests : List (String × Operation)) :
    (ofRequests requests).names = (acceptedNames requests).eraseDups ∧
      (ofRequests requests).names.Nodup ∧
      (∀ name ∈ (ofRequests requests).names, IsProper name) ∧
      (∀ segment : String,
        (∀ word ∈ Text.words segment.toList, isReserved (String.ofList word) = true) →
          findOperator? segment (ofRequests requests).names = findOperator? segment []) ∧
      ∀ (reader : RuleReader) (expression : String) (id : UInt32) (label : Option String),
        reader.registry = ofRequests requests →
        (∀ shape, Shape.ofText? expression.toList = some shape →
          ∀ word ∈ Text.words shape.segment, isReserved (String.ofList word) = true) →
        reader.read expression id label =
          { reader with registry := .empty }.read expression id label := by
  have hmade : (ofRequests requests).Made := (built_ofRequests requests).made
  have hnames := names_ofRequests requests
  refine ⟨hnames, hnames ▸ nodup_eraseDups _, fun name => hmade.isProper,
    fun segment => hmade.findOperator?_eq, ?_⟩
  intro reader expression id label hreader hwords
  refine (reader.read_withRegistry .empty (fun shape hs => ?_) id label).symm
  have hsegment : ∀ word ∈ Text.words (String.ofList shape.segment).toList,
      isReserved (String.ofList word) = true := by
    rw [String.toList_ofList]
    exact hwords shape hs
  rw [hreader]
  exact (hmade.findOperator?_eq hsegment).symm

/-- Requests with names that are refused, one for a reserved word among them, and with one that is
asked for twice. -/
def sampleRequests : List (String × Operation) :=
  [("mask", fun text _ _ _ => text), ("not", fun text _ _ _ => text), ("a b", fun _ _ _ _ => ""),
    ("Is_Not", fun text _ _ _ => text), (" MASK\t", fun _ _ _ _ => ""), ("", fun _ _ _ _ => "")]

/-- Two of these names are kept, and a date limit between them is found and read as it is without
them. -/
theorem reserved_ofRequests_sample :
    let reader : RuleReader :=
      { catalog := .ofList [⟨3, 1, "OpenDate"⟩], registry := ofRequests sampleRequests }
    (ofRequests sampleRequests).names = ["MASK", "IS_NOT"] ∧
      findOperator? "Is Not after" ["MASK", "IS_NOT"] = findOperator? "Is Not after" [] ∧
      reader.read "(N.OpenDate) is NOT After (TODAY)" 1 none =
        { reader with registry := .empty }.read "(N.OpenDate) is NOT After (TODAY)" 1 none := by
  intro reader
  have hnames : (ofRequests sampleRequests).names = ["MASK", "IS_NOT"] := by decide +kernel
  obtain ⟨-, -, -, hfind, hread⟩ := reserved_ofRequests sampleRequests
  refine ⟨hnames, hnames ▸ hfind "Is Not after" (by decide +kernel), ?_⟩
  refine hread reader _ 1 none rfl fun shape hs => ?_
  have hshape : Shape.ofText? "(N.OpenDate) is NOT After (TODAY)".toList =
      some ⟨false, "N.OpenDate".toList, "is NOT After".toList, some "TODAY".toList⟩ := by
    decide +kernel
  rw [hshape] at hs
  cases hs
  decide +kernel

end Registry

end Rulebook
