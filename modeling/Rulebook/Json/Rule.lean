import Rulebook.Json.Record
import Rulebook.Calendar.Pattern
import Rulebook.Rule

/-!
# Rules in JSON

Rules are structures; operands, bounds and clauses are tagged choices among structures. How numbers
are written is left to the caller, because JSON numbers cannot carry every value exactly.
-/

namespace Rulebook

/-- The names of a closed set of words. -/
def namesOf {α : Type} (text : α → String) (words : List α) : List (String × α) :=
  words.map fun word => (text word, word)

/-- A text or nothing. -/
def Json.ofOption {α : Type} (write : α → Json) : Option α → Json
  | none => .null
  | some value => write value

/-- A count of 32 bits. -/
def Json.ofId (id : UInt32) : Json := Json.ofNat id.toNat

/-- Reads the name of a record. -/
def Selector.ofJson? (site : Json.Site) (json : Json) : Option Selector :=
  json.choice? site (namesOf Selector.text Selector.all)

/-- Reads how conditions are joined. -/
def Combinator.ofJson? (json : Json) : Option Combinator :=
  json.choice? .plain (namesOf Combinator.text Combinator.all)

/-- Reads a severity. -/
def Severity.ofJson? (json : Json) : Option Severity :=
  json.choice? .plain (namesOf Severity.text Severity.all)

/-- Reads what a rule set is for. -/
def NodeKind.ofJson? (json : Json) : Option NodeKind :=
  json.choice? .plain (namesOf NodeKind.text NodeKind.all)

/-- Reads the kind of a clause. -/
def ClauseKind.ofJson? (json : Json) : Option ClauseKind :=
  json.choice? .plain (namesOf ClauseKind.text ClauseKind.all)

/-- The names of the fields of a link. -/
def Link.fieldNames : List String := ["attr", "record"]

/-- Reads an attribute in a record. -/
def Link.ofJson? (json : Json) : Option Link := do
  match ← json.fields? fieldNames with
  | [attr, record] =>
    return ⟨← Json.required Attribute.ofJson? attr,
      ← Json.required (Selector.ofJson? .tagged) record⟩
  | _ => none

/-- The members of a link. -/
def Link.members (link : Link) : List (String × Json) :=
  [Json.member "attr" link.attr.toJson, Json.member "record" (Json.ofString link.record.text)]

/-- A choice among structures. -/
def Json.ofTagged (tag name : String) (members : List (String × Json)) : Json :=
  .object (Json.member tag (Json.ofString name) :: members)

/-- Reads an operand. -/
def Source.ofJson? (site : Json.Site) (json : Json) : Option Source := do
  let (name, fields) ← json.tagged? site "type" ["literal", "attribute"]
  if name = "literal" then
    match ← fields.fields? ["value"] with
    | [value] => return .literal (← Json.required Json.text? value)
    | _ => none
  else return .linked (← Link.ofJson? fields)

/-- Writes an operand. -/
def Source.toJson : Source → Json
  | .literal text => Json.ofTagged "type" "literal" [Json.member "value" (Json.ofString text)]
  | .linked link => Json.ofTagged "type" "attribute" link.members

/-- Reads one end of a range of numbers. -/
def NumericBound.ofJson? (json : Json) : Option NumericBound := do
  let (name, fields) ← json.tagged? .tagged "type" ["literal", "attribute"]
  if name = "literal" then
    match ← fields.fields? ["value"] with
    | [value] => return .literal (← Json.required Json.float? value)
    | _ => none
  else
    match ← fields.fields? ["link", "offset"] with
    | [link, offset] =>
      return .linked (← Json.required Link.ofJson? link) (← Json.required Json.float? offset)
    | _ => none

/-- Writes one end of a range of numbers. -/
def NumericBound.toJson (number : Float → Json) : NumericBound → Json
  | .literal value => Json.ofTagged "type" "literal" [Json.member "value" (number value)]
  | .linked link offset =>
    Json.ofTagged "type" "attribute"
      [Json.member "link" (.object link.members), Json.member "offset" (number offset)]

/-- Reads a date. -/
def Calendar.Date.ofJson? (json : Json) : Option Calendar.Date :=
  json.text?.bind Calendar.readStandardDate?

/-- Reads one end of a range of dates. -/
def DateBound.ofJson? (json : Json) : Option DateBound := do
  let (name, fields) ← json.tagged? .tagged "type" ["literal", "today", "attribute"]
  if name = "literal" then
    match ← fields.fields? ["value"] with
    | [value] => return .literal (← Json.required Calendar.Date.ofJson? value)
    | _ => none
  else if name = "today" then
    fields.noFields?
    return .today
  else return .linked (← Link.ofJson? fields)

/-- Writes one end of a range of dates. -/
def DateBound.toJson : DateBound → Json
  | .literal date => Json.ofTagged "type" "literal" [Json.member "value" (Json.ofString date.text)]
  | .today => Json.ofTagged "type" "today" []
  | .linked link => Json.ofTagged "type" "attribute" link.members

/-- Reads a clause of some kind from its fields. -/
def Clause.ofFields? (kind : ClauseKind) (fields : Json) : Option Clause := do
  match kind with
  | .populated =>
    fields.noFields?
    return .populated
  | .domain =>
    match ← fields.fields? ["members", "search_all_rows"] with
    | [members, allRows] =>
      return .domain (← Json.required (Json.list? (Source.ofJson? .tagged)) members)
        (← Json.required Json.bool? allRows)
    | _ => none
  | .numericLimit =>
    match ← fields.fields? ["comparison", "min", "max"] with
    | [comparison, min, max] =>
      return .numericLimit
        (← Json.required (Json.choice? .tagged (namesOf Comparison.text Comparison.all)) comparison)
        (← Json.required NumericBound.ofJson? min) (← Json.required NumericBound.ofJson? max)
    | _ => none
  | .dateLimit =>
    match ← fields.fields? ["comparison", "min", "max", "today"] with
    | [comparison, min, max, today] =>
      return .dateLimit
        (← Json.required
          (Json.choice? .tagged (namesOf DateComparison.text DateComparison.all)) comparison)
        (← Json.required DateBound.ofJson? min) (← Json.required DateBound.ofJson? max)
        (← Json.required Json.bool? today)
    | _ => none
  | .assignment =>
    match ← fields.fields? ["value", "default_only"] with
    | [value, defaultOnly] =>
      return .assignment (← Json.required (Source.ofJson? .tagged) value)
        (← Json.required Json.bool? defaultOnly)
    | _ => none
  | .arithmetic =>
    match ← fields.fields? ["op", "operands"] with
    | [operation, operands] =>
      return .arithmetic
        (← Json.required (Json.choice? .tagged (namesOf Arithmetic.text Arithmetic.all)) operation)
        (← Json.required (Json.list? (Source.ofJson? .tagged)) operands)
    | _ => none
  | .custom =>
    match ← fields.fields? ["name", "args"] with
    | [name, arguments] =>
      return .custom (← Json.required Json.text? name)
        (← Json.required (Json.list? (Source.ofJson? .tagged)) arguments)
    | _ => none

/-- Reads a clause. -/
def Clause.ofJson? (json : Json) : Option Clause := do
  let (name, fields) ← json.tagged? .plain "kind" (ClauseKind.all.map ClauseKind.text)
  Clause.ofFields? (← (namesOf ClauseKind.text ClauseKind.all).lookup name) fields

/-- The members of a clause besides its kind. -/
def Clause.members (number : Float → Json) : Clause → List (String × Json)
  | .populated => []
  | .domain members allRows =>
    [Json.member "members" (.array (members.map Source.toJson)),
     Json.member "search_all_rows" (.bool allRows)]
  | .numericLimit comparison min max =>
    [Json.member "comparison" (Json.ofString comparison.text),
     Json.member "min" (min.toJson number), Json.member "max" (max.toJson number)]
  | .dateLimit comparison min max today =>
    [Json.member "comparison" (Json.ofString comparison.text), Json.member "min" min.toJson,
     Json.member "max" max.toJson, Json.member "today" (.bool today)]
  | .assignment value defaultOnly =>
    [Json.member "value" value.toJson, Json.member "default_only" (.bool defaultOnly)]
  | .arithmetic operation operands =>
    [Json.member "op" (Json.ofString operation.text),
     Json.member "operands" (.array (operands.map Source.toJson))]
  | .custom name arguments =>
    [Json.member "name" (Json.ofString name),
     Json.member "args" (.array (arguments.map Source.toJson))]

/-- Writes a clause. -/
def Clause.toJson (number : Float → Json) (clause : Clause) : Json :=
  Json.ofTagged "kind" clause.kind.text (clause.members number)

/-- Reads a rule. -/
def Rule.ofJson? (json : Json) : Option Rule := do
  match ← json.fields? ["rule_id", "desc_id", "expression", "operator", "target", "record",
      "not_operator", "operands", "kind"] with
  | [id, label, expression, operator, target, record, negated, operands, clause] =>
    return {
      id := ← Json.required Json.uint32? id
      label := ← Json.optional Json.text? label
      expression := ← Json.required Json.text? expression
      operator := ← Json.required Json.text? operator
      target := ← Json.required Attribute.ofJson? target
      record := ← Json.required (Selector.ofJson? .plain) record
      negated := ← Json.required Json.bool? negated
      operands := ← Json.required (Json.list? (Source.ofJson? .plain)) operands
      clause := ← Json.required Clause.ofJson? clause }
  | _ => none

/-- The members of a rule. -/
def Rule.members (number : Float → Json) (rule : Rule) : List (String × Json) :=
  [Json.member "rule_id" (Json.ofId rule.id),
   Json.member "desc_id" (Json.ofOption Json.ofString rule.label),
   Json.member "expression" (Json.ofString rule.expression),
   Json.member "operator" (Json.ofString rule.operator),
   Json.member "target" rule.target.toJson,
   Json.member "record" (Json.ofString rule.record.text),
   Json.member "not_operator" (.bool rule.negated),
   Json.member "operands" (.array (rule.operands.map Source.toJson)),
   Json.member "kind" (rule.clause.toJson number)]

/-- Writes a rule. -/
def Rule.toJson (number : Float → Json) (rule : Rule) : Json := .object (rule.members number)

/-- Reads a rule from a text. -/
def Rule.ofText? (text : String) : Option Rule := (Json.read? text).bind Rule.ofJson?

end Rulebook
