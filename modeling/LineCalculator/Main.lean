import LineCalculator.Console.Program

/-!
# The command line

The program on a terminal.  With arguments there is nothing to wait for and the
whole run is `Program.run`; an interactive session goes line by line, so that
each result is seen before the next line is asked for, by the same turns.
-/

namespace LineCalculator

namespace Terminal

/-- Writes a transcript. -/
def writeTranscript (t : Transcript) : IO Unit := do
  (← IO.getStderr).putStr t.err
  (← IO.getStdout).putStr t.out
  (← IO.getStdout).flush

/-- Writes what a program has written and ends as it ends. -/
def conclude (outcome : Outcome) : IO UInt32 := do
  writeTranscript outcome.transcript
  match outcome.ending with
  | .exit code => return code.toUInt32
  | ending =>
    (← IO.getStderr).putStrLn ("ValueError: " ++ ending.message)
    return 1

/-- Asks for lines and takes turns until the input or the session ends. -/
partial def converse (settings : Settings) (s : Scope) : IO UInt32 := do
  writeTranscript (Transcript.empty.print settings.prompt)
  let line ← (← IO.getStdin).getLine
  if line.isEmpty then conclude ⟨.exit 0, Transcript.empty.print "\n"⟩
  else
    match Program.linesOf line with
    | text :: _ =>
      if Program.isBlankLine text then converse settings s
      else
        let turn := Turn.take settings.threshold s text
        let shown := Transcript.empty.record settings.threshold settings.resultLead turn
        match turn.result with
        | .leave => conclude ⟨.exit 0, shown⟩
        | .aborted => conclude ⟨.aborted, shown⟩
        | _ =>
          writeTranscript shown
          converse settings turn.scope
    | [] => converse settings s

/-- Runs the program on the arguments of the command line. -/
def run (arguments : List String) : IO UInt32 := do
  let environment : Environment :=
    ⟨← IO.getEnv "TCALC_LOG_LEVEL", ← IO.getEnv "TCALC_PROMPT", ← IO.getEnv "TCALC_RESULT_PREFIX"⟩
  match Settings.ofEnvironment environment, Arguments.ofList arguments with
  | .ok settings, .expressions [] =>
    writeTranscript (Transcript.empty.log settings.threshold [.started])
    converse settings Session.initial
  | _, _ => conclude (Program.run environment arguments "")

end Terminal

end LineCalculator

/-- The program. -/
def main (arguments : List String) : IO UInt32 := LineCalculator.Terminal.run arguments
