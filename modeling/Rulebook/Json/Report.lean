import Rulebook.Json.Record
import Rulebook.Json.Rule
import Rulebook.Evaluation.Report

/-!
# Reports in JSON
-/

namespace Rulebook

/-- The members of a failure. -/
def Failure.members (failure : Failure) : List (String × Json) :=
  [Json.member "custom_id" (Json.ofOption Json.ofString failure.customId),
   Json.member "description" (Json.ofString failure.description),
   Json.member "diagnostics" (.array (failure.diagnostics.map Json.ofString)),
   Json.member "message" (Json.ofOption Json.ofString failure.message),
   Json.member "rule_set_id" (Json.ofId failure.setId),
   Json.member "severity" (Json.ofString failure.severity.text)]

/-- The members of a report in the order of their names. -/
def Report.members (report : Report) : List (String × Json) :=
  [Json.member "evaluation_trace"
     (.array (report.trace.map fun entry => Json.ofString entry.text)),
   Json.member "failures" (.array (report.failures.map fun failure => .object failure.members)),
   Json.member "fired_rule_ids" (.array (report.fired.map Json.ofId)),
   Json.member "passed" (.bool report.passed),
   Json.member "visited_rule_set_ids" (.array (report.visited.map Json.ofId))]

/-- Writes a report. -/
def Report.toJson (report : Report) : Json := .object report.members

end Rulebook
