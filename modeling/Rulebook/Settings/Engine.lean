import Rulebook.Settings.Basic
import Rulebook.Compiler
import Rulebook.Evaluation.Walk

/-!
# What settings decide
-/

namespace Rulebook.Settings

/-- The compiler for a catalog. -/
def compiler (settings : Settings) (catalog : Catalog) : Compiler where
  reader := { catalog, epsilon := settings.epsilon, datePattern := settings.datePattern }
  maxDepth := settings.maxDepth.toNat

/-- The executor, which has no date of its own. -/
def executor (settings : Settings) : Executor where
  datePattern := settings.datePattern
  traced := settings.traced

/-- The evaluator of a day. -/
def evaluator (settings : Settings) (day : Calendar.Date) : Evaluator := settings.executor.on day

end Rulebook.Settings
