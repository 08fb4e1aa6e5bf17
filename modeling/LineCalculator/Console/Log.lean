import LineCalculator.Evaluation.Run
import LineCalculator.Decimal.Layout
import LineCalculator.Syntax.Parse

/-!
# The log

While a program runs it keeps a log of what it does, apart from what it prints.
Every entry has a level of importance, and a threshold decides which entries are
written.  Diagnostics of lines are errors; the tokens drawn and the variables
changed are of interest only for finding faults in the program.

## Room

Writing an entry takes room, at the place where the entry is made.  Tokens are
drawn at the bottom of the phrases around them, and every phrase comes down to
drawing one.  So where tokens are written there is less room for phrases, and a
line that nests so far may be too deep there and not elsewhere.  An assignment is
written on the way back from its value, and takes room only where it stands.  A
report takes no more than a token at the same place, and is not counted apart.
-/

namespace LineCalculator

/-- How important an entry is, or has to be. -/
inductive LogLevel where
  | notSet | debug | info | warning | error | critical
  deriving DecidableEq

/-- Something that the program did. -/
inductive LogEntry where
  /-- An interactive session began. -/
  | started
  | reading (r : Reading)
  | effect (e : Effect)
  deriving DecidableEq

namespace LogLevel

/-- The place of a level among the others. -/
def rank : LogLevel → Nat
  | notSet => 0
  | debug => 10
  | info => 20
  | warning => 30
  | error => 40
  | critical => 50

/-- The level of a name. -/
def ofName? : String → Option LogLevel
  | "CRITICAL" => some critical
  | "FATAL" => some critical
  | "ERROR" => some error
  | "WARN" => some warning
  | "WARNING" => some warning
  | "INFO" => some info
  | "DEBUG" => some debug
  | "NOTSET" => some notSet
  | _ => none

/-- Whether entries of a level are written under a threshold. -/
def admits (threshold level : LogLevel) : Bool := decide (threshold.rank ≤ level.rank)

/-- The room that it takes to write a token, apart from what drawing it takes. -/
def tokenCost : Nat := 14

/-- The room that it takes to write an assignment, apart from what operators
take. -/
def assignmentCost : Nat := 8

/-- The room that there is under a threshold to read a line. -/
def readingRoom (threshold : LogLevel) : Nat :=
  if threshold.admits debug then Parse.room - tokenCost else Parse.room

/-- The room that it takes under a threshold to keep account of an assignment. -/
def accountCost (threshold : LogLevel) : Nat :=
  if threshold.admits debug then assignmentCost else 0

end LogLevel

namespace LogEntry

/-- How important an entry is. -/
def level : LogEntry → LogLevel
  | reading (.reported _) => .error
  | _ => .debug

/-- The text of an entry. -/
def text : LogEntry → String
  | started => "Starting REPL"
  | reading (.drew t) =>
    t.text ++ " @" ++ toString t.position.line ++ ":" ++ toString t.position.column ++
      ", len " ++ toString t.length
  | reading (.reported d) => d.message
  | effect (.assigned name value) => name ++ " = " ++ String.ofList value.plain
  | effect (.deleted name) => "deleted " ++ name

/-- Whether an entry is written under a threshold. -/
def isWritten (threshold : LogLevel) (entry : LogEntry) : Bool := threshold.admits entry.level

/-- What is written of some entries under a threshold, each on a line of its
own. -/
def written (threshold : LogLevel) (entries : List LogEntry) : String :=
  String.join ((entries.filter (isWritten threshold)).map (·.text ++ "\n"))

end LogEntry

end LineCalculator
