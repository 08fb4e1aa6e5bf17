import LineCalculator.Syntax.Phrase

/-!
# Reading lines

A line is a command, or else an expression, and ends with a newline or with the
text.  What stands behind the newline is not looked at.

The words of the commands are not reserved.  `exit` and `quit` end a session
only when they stand alone, and `delete` is a command only before a name;
everywhere else they are names like any other.
-/

namespace LineCalculator

namespace Reader

/-- Whether a token is one of some words. -/
def isWord (words : List String) (t : Token) : Bool :=
  t.kind = .identifier && words.contains t.lexeme

/-- The words that end a session. -/
def exitWords : List String := ["exit", "quit"]

/-- The words that forget a variable. -/
def deleteWords : List String := ["delete"]

/-- Reads a request to end the session, if the line is one. -/
def exitCommand : Reader (Option Line) := do
  match ← draw with
  | none => pure none
  | some t =>
    if isWord exitWords t then
      match ← draw with
      | none => pure (some .exit)
      | some following =>
        handBack following
        if following.kind = .newline then pure (some .exit)
        else
          handBack t
          pure none
    else
      handBack t
      pure none

/-- Reads a request to forget a variable, if the line begins with one. -/
def deleteCommand : Reader (Option Line) := do
  match ← draw with
  | none => pure none
  | some t =>
    if isWord deleteWords t then
      match ← draw with
      | none =>
        handBack t
        pure none
      | some following =>
        if following.kind = .identifier then pure (some (.delete following.lexeme))
        else
          handBack following
          handBack t
          pure none
    else
      handBack t
      pure none

/-- Reads the end of the line. -/
def endOfLine : Reader Unit := do
  match ← draw with
  | none => pure ()
  | some t => if t.kind = .newline then pure () else refuse (.unexpectedToken t)

/-- Refuses if a fault has been met. -/
def soundSource : Reader Unit := fun feed =>
  if feed.failed then .error .unparsable feed else .ok () feed

/-- Reads a line. -/
def line (supply room : Nat) : Reader Line := do
  let command ← exitCommand
  let command ← match command with
    | some command => pure (some command)
    | none => deleteCommand
  let read ← match command with
    | some command => pure command
    | none => do
      let e ← phrase supply room .expression
      pure (Line.expression e)
  endOfLine
  soundSource
  pure read

end Reader

/-- What comes of reading a text. -/
structure Parse where
  /-- The line, if the text begins with one. -/
  line? : Option Line
  /-- What was seen of the reading. -/
  readings : Array Reading

namespace Parse

/-- The room that the outermost expression of a line has: what is left of a
thousand units when reading has come to it, without what drawing a token takes. -/
def room : Nat := 984

/-- What a reader's answer comes to: a want of room is reported now, everything
else has been. -/
def ofResult : EStateM.Result Refusal Feed Line → Parse
  | .ok line feed => ⟨some line, feed.readings⟩
  | .error .unparsable feed => ⟨none, feed.readings⟩
  | .error .tooDeep feed => ⟨none, feed.readings.push (.reported (.parse .tooDeep))⟩

/-- Reads the line that a feed holds. -/
def ofFeed (room : Nat) (feed : Feed) : Parse :=
  ofResult (Reader.line (feed.tokens.toList.length + 1) room feed)

/-- The diagnostics of a reading, in the order they were reported. -/
def diagnostics (p : Parse) : List Diagnostic := p.readings.toList.filterMap (·.diagnostic?)

end Parse

/-- Reads the line at the beginning of a text.  There may be less room for it than
usual. -/
def parse (text : String) (room : Nat := Parse.room) : Parse :=
  Parse.ofFeed room (Feed.ofText text)

end LineCalculator
