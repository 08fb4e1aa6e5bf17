import LineCalculator.Text.Quoted
import LineCalculator.Token.Basic

/-!
# Faults of a source text

What can stand where a token should begin and be none.  Apart from characters
that begin no token at all there is only one cause: the two angle brackets,
which mean something doubled and nothing alone.
-/

namespace LineCalculator

/-- Why no token could be read. -/
inductive ScanCause where
  /-- A character that begins no token. -/
  | unexpected (c : Char)
  /-- A token begun that only one character could go on with, and another one
  found. -/
  | mismatch (expected found : Char)
  /-- A token begun that the end of the text cut off. -/
  | endOfInput
  deriving DecidableEq

/-- A place in a text where no token could be read. -/
structure ScanFault where
  cause : ScanCause
  position : Position
  deriving DecidableEq

namespace Position

/-- A place as messages give it. -/
def text (p : Position) : String :=
  "(line " ++ toString p.line ++ ", col " ++ toString p.column ++ ")"

end Position

/-- A character between quotes. -/
def quotedText (c : Char) : String := String.ofList (Text.quoted [c])

namespace ScanFault

/-- What a fault's message says of its cause. -/
def causeText : ScanCause → String
  | .unexpected c => "Unexpected character " ++ quotedText c
  | .mismatch expected found =>
    "Expected " ++ quotedText expected ++ " but found " ++ quotedText found ++ " instead"
  | .endOfInput => "Unexpected end of input"

/-- The message of a fault. -/
def message (f : ScanFault) : String := causeText f.cause ++ " " ++ f.position.text

end ScanFault

end LineCalculator
