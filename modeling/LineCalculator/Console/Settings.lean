import LineCalculator.Console.Log
import LineCalculator.Text.Quoted
import LineCalculator.Text.Uppercase

/-!
# Settings

What the environment can set: which entries of the log are written, what asks
for a line, and what stands before a result in an interactive session.  The name
of a level may be written in letters of either case.
-/

namespace LineCalculator

/-- The variables of the environment that are looked at. -/
structure Environment where
  logLevel : Option String
  prompt : Option String
  resultLead : Option String

/-- The settings of a program run. -/
structure Settings where
  /-- The least important entries of the log that are written. -/
  threshold : LogLevel
  /-- What asks for a line. -/
  prompt : String
  /-- What stands before a result. -/
  resultLead : String

namespace Settings

/-- The settings of an environment, or the name of a level that there is not. -/
def ofEnvironment (e : Environment) : Except String Settings :=
  let name := String.ofList (Text.capitals (e.logLevel.getD "WARNING").toList)
  match LogLevel.ofName? name with
  | some threshold => .ok ⟨threshold, e.prompt.getD "> ", e.resultLead.getD "  "⟩
  | none => .error name

end Settings

end LineCalculator
