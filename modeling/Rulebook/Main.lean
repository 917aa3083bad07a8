import Rulebook.CommandLine.Run
import Std.Time.Zoned

/-!
# The program

Reads files, the environment and the clock, and leaves all else to the library.
-/

namespace Rulebook.CommandLine

/-- The text of a file, if it can be read. -/
def readFile? (path : String) : IO (Option String) :=
  try
    return some (← IO.FS.readFile path)
  catch _ =>
    return none

/-- The names and values of the environment, as the system lists them. -/
def readEnvironment : IO (List (String × String)) := do
  let listing := (← readFile? "/proc/self/environ").getD ""
  return (Text.pieces (· == '\x00') listing.toList).filterMap fun entry =>
    match entry.dropWhile (· != '=') with
    | _ :: value => some (String.ofList (entry.takeWhile (· != '=')), String.ofList value)
    | [] => none

/-- The date of the clock. -/
def readToday : IO Calendar.Date := do
  let now ← Std.Time.PlainDate.now
  return (Calendar.Date.of? now.year now.month.toNat now.day.toNat).getD Calendar.Date.first

end Rulebook.CommandLine

open Rulebook.CommandLine in
/-- Runs the program. -/
def main (words : List String) : IO UInt32 := do
  let environment ← readEnvironment
  let files ← (Host.paths environment words).mapM fun path => return (path, ← readFile? path)
  let host : Host :=
    { file? := fun path => (files.lookup path).join, environment, today := ← readToday }
  let ending := host.run words
  IO.print ending.output
  if let some complaint := ending.complaint then
    IO.eprintln ("Error: " ++ complaint.message)
  return ending.code.toUInt32
