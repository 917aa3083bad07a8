import Rulebook.Json.Rule
import Rulebook.Json.Reader
import Rulebook.Json.Writer
import Rulebook.Export.Description

/-!
# Descriptions of rule trees in JSON

The fields of a description are written in the order of their declaration, and a text that is
written so is read back as the same description. A field that may be absent is written as `null`.
-/

namespace Rulebook

/-- Reads the description of an operand. -/
def OperandDescription.ofJson? (json : Json) : Option OperandDescription := do
  let (name, fields) ← json.tagged? .plain "type" ["literal", "attribute"]
  if name = "literal" then
    match ← fields.fields? ["value"] with
    | [value] => return .literal (← Json.required Json.text? value)
    | _ => none
  else
    match ← fields.fields? ["name", "attribute_id", "record"] with
    | [name, attributeId, record] =>
      return .linked (← Json.required Json.text? name) (← Json.required Json.uint32? attributeId)
        (← Json.required (Selector.ofJson? .tagged) record)
    | _ => none

/-- Writes the description of an operand. -/
def OperandDescription.toJson : OperandDescription → Json
  | .literal value => Json.ofTagged "type" "literal" [Json.member "value" (Json.ofString value)]
  | .linked name attributeId record =>
    Json.ofTagged "type" "attribute"
      [Json.member "name" (Json.ofString name),
       Json.member "attribute_id" (Json.ofId attributeId),
       Json.member "record" (Json.ofString record.text)]

/-- Reads the description of a rule. -/
def RuleDescription.ofJson? (json : Json) : Option RuleDescription := do
  match ← json.fields? ["rule_id", "desc_id", "expression", "operator", "kind", "target_name",
      "target_id", "record", "not_operator", "passive", "operands"] with
  | [id, label, expression, operator, kind, targetName, targetId, record, negated, passive,
      operands] =>
    return {
      id := ← Json.required Json.uint32? id
      label := ← Json.optional Json.text? label
      expression := ← Json.required Json.text? expression
      operator := ← Json.required Json.text? operator
      kind := ← Json.required ClauseKind.ofJson? kind
      targetName := ← Json.required Json.text? targetName
      targetId := ← Json.required Json.uint32? targetId
      record := ← Json.required (Selector.ofJson? .plain) record
      negated := ← Json.required Json.bool? negated
      passive := ← Json.required Json.bool? passive
      operands := ← Json.required (Json.list? OperandDescription.ofJson?) operands }
  | _ => none

/-- Writes the description of a rule. -/
def RuleDescription.toJson (rule : RuleDescription) : Json :=
  .object
    [Json.member "rule_id" (Json.ofId rule.id),
     Json.member "desc_id" (Json.ofOption Json.ofString rule.label),
     Json.member "expression" (Json.ofString rule.expression),
     Json.member "operator" (Json.ofString rule.operator),
     Json.member "kind" (Json.ofString rule.kind.text),
     Json.member "target_name" (Json.ofString rule.targetName),
     Json.member "target_id" (Json.ofId rule.targetId),
     Json.member "record" (Json.ofString rule.record.text),
     Json.member "not_operator" (.bool rule.negated),
     Json.member "passive" (.bool rule.passive),
     Json.member "operands" (.array (rule.operands.map OperandDescription.toJson))]

namespace RuleSetDescription

/-- The names of the fields of the description of a rule set. -/
def fieldNames : List String :=
  ["rule_set_id", "parent_id", "node_type", "description", "custom_id", "failure_message",
   "severity", "combinator", "evaluative_rules", "assertive_rules", "children"]

/-- Reads the description of a rule set whose children were read before. -/
def ofFields? (fields : List (Option Json)) (children : List RuleSetDescription) :
    Option RuleSetDescription := do
  match fields with
  | [id, parent, kind, description, customId, failureMessage, severity, combinator, evaluative,
      assertive, _] =>
    return ⟨{
      id := ← Json.required Json.uint32? id
      parent := ← Json.optional Json.uint32? parent
      kind := ← Json.required NodeKind.ofJson? kind
      description := ← Json.required Json.text? description
      customId := ← Json.optional Json.text? customId
      failureMessage := ← Json.optional Json.text? failureMessage
      severity := ← Json.optional Severity.ofJson? severity
      combinator := ← Json.required Combinator.ofJson? combinator
      evaluative := ← Json.required (Json.list? RuleDescription.ofJson?) evaluative
      assertive := ← Json.required (Json.list? RuleDescription.ofJson?) assertive }, children⟩
  | _ => none

/-- Reads the description of a rule set. -/
def ofJson? (json : Json) : Option RuleSetDescription := json.tree? fieldNames "children" ofFields?

mutual
/-- Writes the description of a rule set. -/
def toJson : RuleSetDescription → Json
  | ⟨head, children⟩ => .object
    [Json.member "rule_set_id" (Json.ofId head.id),
     Json.member "parent_id" (Json.ofOption Json.ofId head.parent),
     Json.member "node_type" (Json.ofString head.kind.text),
     Json.member "description" (Json.ofString head.description),
     Json.member "custom_id" (Json.ofOption Json.ofString head.customId),
     Json.member "failure_message" (Json.ofOption Json.ofString head.failureMessage),
     Json.member "severity"
       (Json.ofOption (fun severity => Json.ofString severity.text) head.severity),
     Json.member "combinator" (Json.ofString head.combinator.text),
     Json.member "evaluative_rules" (.array (head.evaluative.map RuleDescription.toJson)),
     Json.member "assertive_rules" (.array (head.assertive.map RuleDescription.toJson)),
     Json.member "children" (.array (toJsonAll children))]

/-- Writes the descriptions of rule sets. -/
def toJsonAll : List RuleSetDescription → List Json
  | [] => []
  | set :: more => set.toJson :: toJsonAll more
end

end RuleSetDescription

namespace TreeDescription

/-- Reads the description of a tree. -/
def ofJson? (json : Json) : Option TreeDescription := do
  match ← json.fields? ["compile_version", "custom_operators", "root"] with
  | [version, customOperators, root] =>
    return {
      version := ← Json.required Json.uint64? version
      customOperators := ← Json.required (Json.list? Json.text?) customOperators
      root := ← Json.required RuleSetDescription.ofJson? root }
  | _ => none

/-- Writes the description of a tree. -/
def toJson (tree : TreeDescription) : Json :=
  .object
    [Json.member "compile_version" (Json.ofNat tree.version.toNat),
     Json.member "custom_operators" (.array (tree.customOperators.map Json.ofString)),
     Json.member "root" tree.root.toJson]

/-- Reads the description of a tree from a text. -/
def ofText? (text : String) : Option TreeDescription := (Json.read? text).bind ofJson?

/-- The text of a description, one field on a line. -/
def jsonText (tree : TreeDescription) : String := tree.toJson.indented

end TreeDescription

end Rulebook
