import Rulebook.Json.Rule
import Rulebook.RuleSet

/-!
# Rule sets in JSON

A rule set is a structure whose field `children` holds the rule sets below it.
-/

namespace Rulebook

/-- The names of the fields of a rule set. -/
def RuleSet.fieldNames : List String :=
  ["rule_set_id", "parent_id", "node_type", "description", "combinator", "evaluative_rules",
   "assertive_rules", "children", "severity", "custom_failure_msg", "custom_id"]

/-- Reads a rule set whose children were read before. -/
def RuleSet.ofFields? (fields : List (Option Json)) (children : List RuleSet) :
    Option RuleSet := do
  match fields with
  | [id, parent, kind, description, combinator, evaluative, assertive, _, severity, failureMessage,
      customId] =>
    return ⟨{
      id := ← Json.required Json.uint32? id
      parent := ← Json.optional Json.uint32? parent
      kind := ← Json.required NodeKind.ofJson? kind
      description := ← Json.required Json.text? description
      combinator := ← Json.required Combinator.ofJson? combinator
      evaluative := ← Json.required (Json.list? Rule.ofJson?) evaluative
      assertive := ← Json.required (Json.list? Rule.ofJson?) assertive
      severity := ← Json.optional Severity.ofJson? severity
      failureMessage := ← Json.optional Json.text? failureMessage
      customId := ← Json.optional Json.text? customId }, children⟩
  | _ => none

/-- Reads a rule set. -/
def RuleSet.ofJson? (json : Json) : Option RuleSet :=
  json.tree? RuleSet.fieldNames "children" RuleSet.ofFields?

/-- Reads a rule set from a text. -/
def RuleSet.ofText? (text : String) : Option RuleSet := (Json.read? text).bind RuleSet.ofJson?

mutual
/-- Writes a rule set. -/
def RuleSet.toJson (number : Float → Json) : RuleSet → Json
  | ⟨head, children⟩ => .object
    [Json.member "rule_set_id" (Json.ofId head.id),
     Json.member "parent_id" (Json.ofOption Json.ofId head.parent),
     Json.member "node_type" (Json.ofString head.kind.text),
     Json.member "description" (Json.ofString head.description),
     Json.member "combinator" (Json.ofString head.combinator.text),
     Json.member "evaluative_rules" (.array (head.evaluative.map (Rule.toJson number))),
     Json.member "assertive_rules" (.array (head.assertive.map (Rule.toJson number))),
     Json.member "children" (.array (RuleSet.toJsonAll number children)),
     Json.member "severity"
       (Json.ofOption (fun severity => Json.ofString severity.text) head.severity),
     Json.member "custom_failure_msg" (Json.ofOption Json.ofString head.failureMessage),
     Json.member "custom_id" (Json.ofOption Json.ofString head.customId)]

/-- Writes rule sets. -/
def RuleSet.toJsonAll (number : Float → Json) : List RuleSet → List Json
  | [] => []
  | set :: more => set.toJson number :: RuleSet.toJsonAll number more
end

end Rulebook
