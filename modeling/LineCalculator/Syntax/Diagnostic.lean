import LineCalculator.Token.Fault

/-!
# Diagnostics

What is reported of a line that is not right: either the source held something
that is no token, or the tokens did not fit together.  A diagnostic is its
cause; the wording is a function of it.
-/

namespace LineCalculator

/-- Why some tokens are not a line. -/
inductive ParseFault where
  /-- A token that cannot stand where it stands. -/
  | unexpectedToken (t : Token)
  /-- A number token that has no value. -/
  | invalidNumber (t : Token)
  /-- The tokens ended too early. -/
  | endOfInput
  /-- Phrases within phrases, more than there is room for. -/
  | tooDeep
  deriving DecidableEq

/-- What is reported of a line. -/
inductive Diagnostic where
  | scan (f : ScanFault)
  | parse (f : ParseFault)
  deriving DecidableEq

/-- A token with its place, as messages give it. -/
def Token.citation (t : Token) : String :=
  String.ofList [Text.singleQuote] ++ t.text ++ String.ofList [Text.singleQuote] ++ " " ++
    t.position.text

namespace Diagnostic

/-- The message of a diagnostic. -/
def message : Diagnostic → String
  | scan f => f.message
  | parse (.unexpectedToken t) => "Unexpected token " ++ t.citation
  | parse (.invalidNumber t) => "Invalid number literal " ++ t.citation
  | parse .endOfInput => "Unexpected end of input"
  | parse .tooDeep => "Expression is nested too deeply"

end Diagnostic

end LineCalculator
