import LineCalculator.Console.Arguments
import LineCalculator.Console.Settings
import LineCalculator.Console.Turn
import LineCalculator.Text.Blank

/-!
# The program

The program as a function from its environment, its arguments and its whole
input to what it writes and how it ends.

With expressions as arguments it takes a turn for each and ends after the last;
a request to end the session has nothing to end then and is passed over.
Without, it asks for lines until the input or a request ends the session, and
lines of blanks alone get no turn.
-/

namespace LineCalculator

/-- What a program has written. -/
structure Transcript where
  /-- What was printed. -/
  out : String
  /-- What was written of the log. -/
  err : String
  deriving DecidableEq

/-- How a program ends. -/
inductive Ending where
  | exit (code : Nat)
  /-- The environment names a level that there is not. -/
  | unknownLevel (name : String)
  /-- A failure that is no error of the calculator. -/
  | aborted
  deriving DecidableEq

/-- The end of a program with all that it wrote. -/
structure Outcome where
  ending : Ending
  transcript : Transcript
  deriving DecidableEq

namespace Transcript

/-- Nothing written. -/
def empty : Transcript := ⟨"", ""⟩

/-- Prints a text. -/
def print (t : Transcript) (text : String) : Transcript := { t with out := t.out ++ text }

/-- Logs some entries. -/
def log (t : Transcript) (threshold : LogLevel) (entries : List LogEntry) : Transcript :=
  { t with err := t.err ++ LogEntry.written threshold entries }

/-- Writes what there is to write of a turn, with the given text before a
value. -/
def record (t : Transcript) (threshold : LogLevel) (lead : String) (turn : Turn) : Transcript :=
  (t.log threshold turn.entries).print (turn.result.printed lead)

end Transcript

/-- The message of an ending that is not an exit. -/
def Ending.message : Ending → String
  | exit _ => ""
  | unknownLevel name => "Unknown level: " ++ String.ofList (Text.quoted name.toList)
  | aborted => Failure.domain.message

namespace Program

/-- The name of the program and of its version. -/
def versionText : String := "tcalc 0.1.0\n"

/-- How the program is used. -/
def usageText : String := "usage: tcalc [-h] [--version] [expressions ...]\n"

/-- Takes a turn for every expression. -/
def runExpressions (settings : Settings) (s : Scope) (shown : Transcript) :
    List String → Outcome
  | [] => ⟨.exit 0, shown⟩
  | text :: rest =>
    let turn := Turn.take settings.threshold s text
    let shown := shown.record settings.threshold "" turn
    if turn.result = .aborted then ⟨.aborted, shown⟩
    else runExpressions settings turn.scope shown rest

/-- Whether a line is passed over. -/
def isBlankLine (line : String) : Bool := line.toList.all Text.isBlank

/-- Asks for lines and takes a turn for each that is not blank. -/
def runLines (settings : Settings) (s : Scope) (shown : Transcript) : List String → Outcome
  | [] => ⟨.exit 0, (shown.print settings.prompt).print "\n"⟩
  | line :: rest =>
    let shown := shown.print settings.prompt
    if isBlankLine line then runLines settings s shown rest
    else
      let turn := Turn.take settings.threshold s line
      let shown := shown.record settings.threshold settings.resultLead turn
      match turn.result with
      | .leave => ⟨.exit 0, shown⟩
      | .aborted => ⟨.aborted, shown⟩
      | _ => runLines settings turn.scope shown rest

/-- The characters of each line of a text, given those of its first line read so
far.  A newline ends a line, and so does the end of a text that does not end
with one. -/
def splitLines (begun : List Char) : List Char → List (List Char)
  | [] => if begun.isEmpty then [] else [begun.reverse]
  | '\n' :: rest => begun.reverse :: splitLines [] rest
  | c :: rest => splitLines (c :: begun) rest

/-- The lines of an input. -/
def linesOf (input : String) : List String := (splitLines [] input.toList).map String.ofList

/-- Runs the program with settings. -/
def runWith (settings : Settings) (arguments : Arguments) (input : String) : Outcome :=
  match arguments with
  | .version => ⟨.exit 0, ⟨versionText, ""⟩⟩
  | .help => ⟨.exit 0, ⟨usageText, ""⟩⟩
  | .misuse => ⟨.exit 2, ⟨"", usageText⟩⟩
  | .expressions [] =>
    runLines settings Session.initial (Transcript.empty.log settings.threshold [.started])
      (linesOf input)
  | .expressions texts => runExpressions settings Session.initial Transcript.empty texts

/-- Runs the program. -/
def run (environment : Environment) (arguments : List String) (input : String) : Outcome :=
  match Settings.ofEnvironment environment with
  | .error name => ⟨.unknownLevel name, Transcript.empty⟩
  | .ok settings => runWith settings (Arguments.ofList arguments) input

end Program

end LineCalculator
