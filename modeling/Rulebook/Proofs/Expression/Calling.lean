import Rulebook.Proofs.Expression.Opposite
import Rulebook.Proofs.Expression.Written
import Rulebook.Proofs.Record.Cells

/-!
# Calling custom operators

A rule calls a custom operator by the name under which it is kept, with the texts of its operands
between parentheses. The target ends at the first closing parenthesis and the name at the next
opening one, and blanks around the name of the target do not count; within these limits every name
that was accepted can be called, whatever signs and letters it is made of, and the call writes what
the registered function makes of its arguments.
-/

namespace Rulebook

open Text (Blanks)

namespace Registry

/-- A function is registered under a name: it was accepted under this name, and after it none was
accepted under the same one. -/
inductive Registered (given : String) (operation : Operation) : Registry → Prop where
  /-- The function was accepted last of all. -/
  | last {registry next : Registry} (built : registry.Built)
    (h : registry.register given operation = .ok next) : Registered given operation next
  /-- A function was accepted later under another name. -/
  | other {registry next : Registry} {name : String} {function : Operation}
    (before : Registered given operation registry)
    (h : registry.register name function = .ok next)
    (unlike : normalName given ≠ normalName name) : Registered given operation next

variable {registry next : Registry} {given name : String} {operation : Operation}

theorem Registered.built (h : Registered given operation registry) : registry.Built := by
  induction h with
  | last built h => exact .register built h
  | other _ h _ ih => exact .register ih h

/-- After registering, the name has the function, and others have what they had. -/
theorem find?_register (h : registry.register name operation = .ok next) (other : String) :
    next.find? other =
      if Text.capitals other = normalName name then some operation else registry.find? other := by
  obtain ⟨-, rfl⟩ := register_eq_ok_iff.mp h
  exact lookup_bind _ _ _ _

/-- The kept form of a name has the function that is registered under the name. -/
theorem Registered.find? (h : Registered given operation registry) :
    registry.find? (normalName given) = some operation := by
  induction h with
  | last _ h => rw [find?_register h, if_pos (capitals_normalName given)]
  | other _ h unlike ih => rw [find?_register h, capitals_normalName, if_neg unlike, ih]

/-- The kept form of a name under which a function is registered is one of the names. -/
theorem Registered.mem_names (h : Registered given operation registry) :
    normalName given ∈ registry.names := by
  have hcontains : registry.contains (normalName given) = true := by
    rw [contains, h.find?]
    rfl
  rw [contains_iff, capitals_normalName] at hcontains
  exact hcontains

end Registry

namespace RuleReader

variable {reader : RuleReader}

/-- A text is a valid operand that stands for a source. -/
structure IsOperand (reader : RuleReader) (text : String) (source : Source) : Prop where
  /-- There is no comma in it, which would make it two operands. -/
  single : ',' ∉ text.toList
  /-- It is read. -/
  read : ∃ expression, reader.readOperand expression text.toList = .ok source

/-- A valid operand is read in every rule, also without the blanks around it. -/
theorem IsOperand.readOperand {text : String} {source : Source} (h : reader.IsOperand text source)
    (expression : String) :
    reader.readOperand expression (Text.trim text.toList) = .ok source := by
  obtain ⟨other, hother⟩ := h.read
  have hread := reader.carries_readOperand other expression text.toList source hother
  rw [RuleReader.readOperand] at hread ⊢
  rw [Text.trim_trim]
  exact hread

/-- A valid operand is not blank. -/
theorem IsOperand.trim_ne_nil {text : String} {source : Source} (h : reader.IsOperand text source) :
    Text.trim text.toList ≠ [] := by
  intro hnil
  have hread := h.readOperand ""
  rw [hnil] at hread
  cases hread

/-- Valid operands that are joined by commas are read as what they stand for. -/
theorem readOperands_joined {operands : List (String × Source)}
    (h : ∀ operand ∈ operands, reader.IsOperand operand.1 operand.2) (expression : String) :
    reader.readOperands expression
        (splitOperands (",".intercalate (operands.map Prod.fst)).toList) =
      .ok (operands.map Prod.snd) := by
  have hjoined : (",".intercalate (operands.map Prod.fst)).toList =
      [','].intercalate (operands.map fun operand => operand.1.toList) := by
    rw [String.toList_intercalate, List.map_map]
    rfl
  have hparts : ∀ part ∈ operands.map fun operand => operand.1.toList,
      ',' ∉ part ∧ Text.trim part ≠ [] := by
    intro part hp
    obtain ⟨operand, ho, rfl⟩ := List.mem_map.mp hp
    exact ⟨(h operand ho).single, (h operand ho).trim_ne_nil⟩
  rw [hjoined, splitOperands_parts hparts, List.map_map]
  exact readOperands_map fun operand ho => (h operand ho).readOperand expression

end RuleReader

/-- A rule can name the attribute as its target. -/
structure Attribute.IsNameable (attr : Attribute) : Prop where
  /-- No parenthesis opens in the name. -/
  unopened : '(' ∉ attr.name.toList
  /-- No parenthesis closes in the name. -/
  unclosed : ')' ∉ attr.name.toList
  /-- The name has no blanks at its ends. -/
  bare : Text.hasOuterBlank attr.name = false

/-- What a function makes of a list of texts; texts that are not given are empty. -/
def Operation.applied (operation : Operation) (texts : List String) : String :=
  operation (texts[0]?.getD "") (texts[1]?.getD "") (texts[2]?.getD "") (texts[3]?.getD "")

/-- A call of a custom operator. -/
structure Call where
  /-- The target, in the new record. -/
  target : Attribute
  /-- The name of the operator. -/
  name : String
  /-- The texts of the operands, with what they stand for. -/
  operands : List (String × Source)

namespace Call

/-- The text of the rule. -/
def text (call : Call) : String :=
  let list := ",".intercalate (call.operands.map Prod.fst)
  s!"(N.{call.target.name}) {call.name} ({list})"

/-- What the operands stand for. -/
def sources (call : Call) : List Source := call.operands.map Prod.snd

/-- The rule that is meant. -/
def rule (call : Call) (id : UInt32) (label : Option String) : Rule where
  id := id
  label := label
  expression := call.text
  operator := call.name
  target := call.target
  record := .new
  negated := false
  operands := call.sources
  clause := .custom call.name call.sources

/-- What a call names is known to a reader, and its operands are valid and not too many. -/
structure Fits (call : Call) (reader : RuleReader) : Prop where
  /-- The target is an attribute of the catalog. -/
  target : reader.catalog.byName? call.target.name = some call.target
  /-- The operands are valid. -/
  operands : ∀ operand ∈ call.operands, reader.IsOperand operand.1 operand.2
  /-- There are not more operands than a custom operator takes. -/
  few : call.operands.length ≤ 4

variable {call : Call} {reader : RuleReader}

/-- The target as it is written. -/
def mention (call : Call) (h : call.target.IsNameable) : Mention where
  letter := 'N'
  record := .new
  attr := call.target
  selects := List.mem_cons_self
  bare := h.bare

/-- The layout of a call. -/
def layout (call : Call) (h : call.target.IsNameable) (hn : Registry.IsKept call.name) :
    Layout (.custom call.name) where
  front := .none
  negation := none
  target := (call.mention h).text
  before := .space
  operator := ⟨call.name.toList, []⟩
  behind := .space
  last := .none
  plain := (call.mention h).plain_text ⟨h.unopened, h.unclosed⟩
  spelled := by
    have hcapitals : Text.upper call.name.toList = call.name.toList :=
      Text.upper_of_capitals hn.capitals
    rw [hn.words_custom]
    exact congrArg (fun word => [word]) hcapitals

/-- The text of a call is that of its layout. -/
theorem text_eq (h : call.target.IsNameable) (hn : Registry.IsKept call.name) :
    call.text = String.ofList ((call.layout h hn).text
      (",".intercalate (call.operands.map Prod.fst)).toList) := by
  rw [← String.toList_inj]
  simp [text, toString, Layout.text, Layout.unsigned, layout, mention, Mention.text, Mention.core,
    Blanks.none, Blanks.space, Text.Gap.space, Text.Spaced.text]

/-- The text of a call has no blanks at its ends. -/
theorem trimmed_text (h : call.target.IsNameable) (hn : Registry.IsKept call.name) :
    Text.trimmed call.text = call.text := by
  obtain ⟨body, hbody⟩ : ∃ body, call.text.toList = '(' :: (body ++ [')']) := by
    rw [text_eq h hn, String.toList_ofList]
    refine ⟨(call.mention h).text ++ ')' :: ' ' :: (call.name.toList ++ ' ' :: '(' ::
      (",".intercalate (call.operands.map Prod.fst)).toList), ?_⟩
    simp [Layout.text, Layout.unsigned, layout, Blanks.none, Blanks.space, Text.Gap.space,
      Text.Spaced.text]
  have hbare : Text.hasOuterBlank call.text = false := by
    have hopen : Text.isBlank '(' = false := by decide
    have hclose : Text.isBlank ')' = false := by decide
    simp [Text.hasOuterBlank, hbody, hopen, hclose, List.getLast?_cons]
  exact Text.trimmed_eq_self hbare

/-- A call of an operator that a registry knows is read as the rule that is meant, if no parenthesis
opens in the name of the operator. -/
theorem read_called (hbuilt : reader.registry.Built) (hname : call.name ∈ reader.registry.names)
    (hopen : '(' ∉ call.name.toList) (htarget : call.target.IsNameable) (hfits : call.Fits reader)
    (id : UInt32) (label : Option String) :
    reader.read call.text id label = .ok (call.rule id label) := by
  have hkept : Registry.IsKept call.name := hbuilt.made.isKept hname
  have hphrase : Phrase.custom call.name ∈ reader.registry.phrases :=
    List.mem_append_left _ (List.mem_map_of_mem hname)
  have hwords : ∀ word ∈ (Phrase.custom call.name).words, '(' ∉ word := by
    rw [hkept.words_custom]
    exact List.forall_mem_singleton.mpr hopen
  have hlink : reader.readLink (call.layout htarget hkept).target = .ok ⟨call.target, .new⟩ :=
    (call.mention htarget).readLink_text hfits.target
  have hread : reader.readOperands call.text
      (RuleReader.splitOperands (",".intercalate (call.operands.map Prod.fst)).toList) =
        .ok call.sources := RuleReader.readOperands_joined hfits.operands call.text
  have hadmitted : (Verb.custom call.name).clause? call.sources =
      some (.custom call.name call.sources) :=
    if_pos (by rw [sources, List.length_map]; exact hfits.few)
  have hclause := RuleReader.readClause_verb hread hadmitted
  have hlayout := RuleReader.read_layout hbuilt.made hphrase hwords (call.layout htarget hkept)
    hlink (",".intercalate (call.operands.map Prod.fst)).toList id label
  have htoken : (Phrase.custom call.name).token = (Verb.custom call.name).phrase.token := rfl
  rw [← text_eq htarget hkept, htoken, hclause] at hlayout
  rw [hlayout, Except.map, Layout.rule, ← text_eq htarget hkept, trimmed_text htarget hkept]
  rfl

/-- What the called function makes of the arguments in the records. -/
def value (call : Call) (operation : Operation) (records : Records) : String :=
  operation.applied (call.sources.map fun source => source.value records)

/-- A call of an operator that has a function passes and writes what the function makes of the
arguments, into whichever record is selected. -/
theorem execute_rule {environment : Environment} {operation : Operation}
    (hfind : environment.registry.find? call.name = some operation) (id : UInt32)
    (label : Option String) (records : Records) {selected : Selector} (hs : selected ≠ .none) :
    ∃ written, records.write? ⟨call.target, selected⟩ (call.value operation records) =
        some written ∧
      { call.rule id label with record := selected }.execute environment records =
        .ok ({ passed := true }, written) := by
  have hinvoke : environment.registry.invoke call.name
      (call.sources.map fun source => source.value records) =
        .ok (call.value operation records) := by
    rw [Registry.invoke, hfind]
    rfl
  have hmeant : { call.rule id label with record := selected }.record ≠ .none := hs
  obtain ⟨written, hwrite, hwritten, -⟩ :=
    Rule.write_of_record hmeant records (call.value operation records)
  refine ⟨written, hwritten, ?_⟩
  rw [← hwrite]
  simp only [Rule.execute, Call.rule, hinvoke]

end Call

namespace Registry

/-- Every function that is registered can be called by the kept form of its name, if no parenthesis
opens in it: with each target that a rule can name and up to four valid operands, the call is read
as a rule with this operator and these arguments, and with a selected record the rule passes and
writes what the function makes of them. -/
theorem Registered.callable {given : String} {operation : Operation} {reader : RuleReader}
    (hregistered : Registered given operation reader.registry) {call : Call}
    (hname : call.name = normalName given) (hopen : '(' ∉ call.name.toList)
    (htarget : call.target.IsNameable) (hfits : call.Fits reader) (id : UInt32)
    (label : Option String) :
    reader.read call.text id label = .ok (call.rule id label) ∧
      ∀ (environment : Environment) (records : Records) (selected : Selector),
        environment.registry = reader.registry → selected ≠ .none →
        ∃ written, records.write? ⟨call.target, selected⟩ (call.value operation records) =
            some written ∧
          written.value ⟨call.target, selected⟩ = call.value operation records ∧
          { call.rule id label with record := selected }.execute environment records =
            .ok ({ passed := true }, written) := by
  have hmem : call.name ∈ reader.registry.names := hname ▸ hregistered.mem_names
  refine ⟨Call.read_called hregistered.built hmem hopen htarget hfits id label, ?_⟩
  intro environment records selected hregistry hs
  have hfind : environment.registry.find? call.name = some operation := by
    rw [hregistry, hname]
    exact hregistered.find?
  obtain ⟨written, hwritten, hexecute⟩ := Call.execute_rule hfind id label records hs
  refine ⟨written, hwritten, ?_, hexecute⟩
  rw [Records.value_write? hwritten, if_pos]
  exact ⟨rfl, rfl, rfl⟩

/-- A function that joins its arguments. -/
def joined : Operation := fun first second third fourth => first ++ second ++ third ++ fourth

/-- A function with signs and foreign letters in its name is called with a literal, a number and an
attribute, and another one registered after it. -/
theorem callable_signs : ∃ reader : RuleReader, reader.registry.names = ["GRÖßE),", "MASK"] ∧
    Registered " GrÖße)," joined reader.registry ∧
      ∃ rule, reader.read "(N.Owner) GRÖßE), ('a&#44;b(',7, O.Fee)" 1 none = .ok rule ∧
        rule.clause = .custom "GRÖßE),"
          [.literal "a,b(", .literal "7", .linked ⟨⟨2, 1, "Fee"⟩, .old⟩] ∧
        ∀ environment records, environment.registry = reader.registry →
          ∃ written, written.value ⟨⟨1, 1, "Owner"⟩, .new⟩ =
              "a,b(" ++ "7" ++ records.value ⟨⟨2, 1, "Fee"⟩, .old⟩ ++ "" ∧
            rule.execute environment records = .ok ({ passed := true }, written) := by
  let call : Call :=
    { target := ⟨1, 1, "Owner"⟩
      name := "GRÖßE),"
      operands := [("'a&#44;b('", .literal "a,b("), ("7", .literal "7"),
        (" O.Fee", .linked ⟨⟨2, 1, "Fee"⟩, .old⟩)] }
  have hfirst : Registry.empty.register " GrÖße)," joined = .ok ⟨[("GRÖßE),", joined)]⟩ := rfl
  have hsecond : Registry.register ⟨[("GRÖßE),", joined)]⟩ "mask" joined =
      .ok ⟨[("GRÖßE),", joined), ("MASK", joined)]⟩ := rfl
  let reader : RuleReader :=
    { catalog := .ofList [⟨1, 1, "Owner"⟩, ⟨2, 1, "Fee"⟩]
      registry := ⟨[("GRÖßE),", joined), ("MASK", joined)]⟩ }
  have hregistered : Registered " GrÖße)," joined reader.registry :=
    .other (.last .empty hfirst) hsecond (by decide +kernel)
  have hoperands : ∀ operand ∈ call.operands, reader.IsOperand operand.1 operand.2 := by
    have hliteral : reader.IsOperand "'a&#44;b('" (.literal "a,b(") :=
      ⟨by decide +kernel, "", by decide +kernel⟩
    have hnumber : reader.IsOperand "7" (.literal "7") := ⟨by decide +kernel, "", rfl⟩
    have hlinked : reader.IsOperand " O.Fee" (.linked ⟨⟨2, 1, "Fee"⟩, .old⟩) :=
      ⟨by decide +kernel, "", by decide +kernel⟩
    simp [call, hliteral, hnumber, hlinked]
  have hname : call.name = normalName " GrÖße)," := by decide +kernel
  have hopen : '(' ∉ call.name.toList := by decide +kernel
  have htarget : call.target.IsNameable :=
    ⟨by decide +kernel, by decide +kernel, by decide +kernel⟩
  have hfits : call.Fits reader := ⟨by decide +kernel, hoperands, by decide⟩
  obtain ⟨hread, hexecute⟩ := hregistered.callable hname hopen htarget hfits 1 none
  have htext : call.text = "(N.Owner) GRÖßE), ('a&#44;b(',7, O.Fee)" := by decide +kernel
  refine ⟨reader, rfl, hregistered, call.rule 1 none, htext ▸ hread, rfl, ?_⟩
  intro environment records hregistry
  obtain ⟨written, -, hvalue, hrun⟩ := hexecute environment records .new hregistry nofun
  exact ⟨written, hvalue, hrun⟩

/-- A call with one literal. -/
def literalCall (target : Attribute) (name : String) : Call :=
  ⟨target, name, [("'a'", .literal "a")]⟩

/-- Not every accepted name can be called with every target: a parenthesis ends the name of the
operator and the name of the target, and the blanks around the name of the target are dropped. -/
theorem not_callable_always : ∃ reader : RuleReader,
    Registered "f(x" joined reader.registry ∧ Registered "mask" joined reader.registry ∧
      (literalCall ⟨1, 1, "Owner"⟩ "F(X").Fits reader ∧
      reader.read (literalCall ⟨1, 1, "Owner"⟩ "F(X").text 1 none =
        .error (.expression "(N.Owner) F(X ('a')" (.unknownOperator "F")) ∧
      (literalCall ⟨2, 1, "Fee)"⟩ "MASK").Fits reader ∧
      reader.read (literalCall ⟨2, 1, "Fee)"⟩ "MASK").text 1 none =
        .error (.unknownAttribute "Fee") ∧
      (literalCall ⟨3, 1, " Fee"⟩ "MASK").Fits reader ∧
      reader.read (literalCall ⟨3, 1, " Fee"⟩ "MASK").text 1 none =
        .error (.unknownAttribute "Fee") := by
  have hfirst : Registry.empty.register "f(x" joined = .ok ⟨[("F(X", joined)]⟩ := rfl
  have hsecond : Registry.register ⟨[("F(X", joined)]⟩ "mask" joined =
      .ok ⟨[("F(X", joined), ("MASK", joined)]⟩ := rfl
  let reader : RuleReader :=
    { catalog := .ofList [⟨1, 1, "Owner"⟩, ⟨2, 1, "Fee)"⟩, ⟨3, 1, " Fee"⟩]
      registry := ⟨[("F(X", joined), ("MASK", joined)]⟩ }
  have hliteral : reader.IsOperand "'a'" (.literal "a") :=
    ⟨by decide +kernel, "", by decide +kernel⟩
  have hfits : ∀ (attr : Attribute) (name : String), reader.catalog.byName? attr.name = some attr →
      (literalCall attr name).Fits reader := fun attr name hknown =>
    ⟨hknown, List.forall_mem_singleton.mpr hliteral, by simp [literalCall]⟩
  refine ⟨reader, .other (.last .empty hfirst) hsecond (by decide +kernel),
    .last (.register .empty hfirst) hsecond, hfits _ _ (by decide +kernel), ?_,
    hfits _ _ (by decide +kernel), ?_, hfits _ _ (by decide +kernel), ?_⟩
  · decide +kernel
  · decide +kernel
  · decide +kernel

end Registry

end Rulebook
