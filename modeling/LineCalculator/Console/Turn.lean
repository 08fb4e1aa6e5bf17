import LineCalculator.Console.Log
import LineCalculator.Evaluation.Session

/-!
# Turns

A turn is what the program does with one line of input: it reads the line, runs
it, and comes to a result to be printed.  Turns are the same whether the lines
come from the command line or from an interactive session.
-/

namespace LineCalculator

/-- The result of a turn. -/
inductive TurnResult where
  /-- Nothing to print: the line could not be read, or has no value. -/
  | silent
  | value (v : Binary64)
  | error (e : CalcError)
  /-- The request to end the session. -/
  | leave
  /-- A failure that ends the program. -/
  | aborted
  deriving DecidableEq

/-- What happens in a turn. -/
structure Turn where
  /-- What is logged, in the order in which it happens. -/
  entries : List LogEntry
  result : TurnResult
  /-- The scope after the turn. -/
  scope : Scope

namespace TurnResult

/-- What is printed of a result, with the given text before a value. -/
def printed (lead : String) : TurnResult → String
  | value v => lead ++ String.ofList v.result ++ "\n"
  | error e => e.message ++ "\n"
  | _ => ""

/-- The result that the outcome of a run comes to. -/
def ofOutcome {α : Type} (result : α → TurnResult) : Except Failure α → TurnResult
  | .ok v => result v
  | .error (.error e) => error e
  | .error .domain => aborted

end TurnResult

namespace Turn

/-- The log entries of the reading of a line. -/
def readingEntries (p : Parse) : List LogEntry := p.readings.toList.map .reading

/-- The log entries of a run. -/
def effectEntries {α : Type} (r : Run α) : List LogEntry := r.effects.toList.map .effect

/-- The turn of a line, under the threshold of the log. -/
def take (threshold : LogLevel) (s : Scope) (text : String) : Turn :=
  let read := parse text threshold.readingRoom
  match read.line? with
  | none => ⟨readingEntries read, .silent, s⟩
  | some .exit => ⟨readingEntries read, .leave, s⟩
  | some (.delete name) =>
    let run := s.runDelete name
    ⟨readingEntries read ++ effectEntries run, .ofOutcome (fun _ => .silent) run.outcome,
      run.scope⟩
  | some (.expression e) =>
    let run := s.run e threshold.accountCost
    ⟨readingEntries read ++ effectEntries run, .ofOutcome .value run.outcome, run.scope⟩

end Turn

end LineCalculator
