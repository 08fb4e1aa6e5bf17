import LineCalculator.Decimal.Shortest
import LineCalculator.Token.Basic

/-!
# The values of number tokens

A number token has a value if it has a digit.  In the decimal forms the value is
the rational that digits and point denote, rounded once, whatever their number.
In the other forms it is an integer, which has to fit 64 bits to be accepted and
is rounded once as well.
-/

namespace LineCalculator

namespace Literal

/-- The value of a digit of any radix up to sixteen. -/
def digitValue (c : Char) : Nat :=
  if c.isDigit then c.toNat - 0x30
  else if 'a' ≤ c then c.toNat - 0x61 + 10
  else c.toNat - 0x41 + 10

/-- The integer that some digits of a radix denote. -/
def integerValue (radix : Nat) (digits : List Char) : Nat :=
  digits.foldl (fun n c => n * radix + digitValue c) 0

/-- The decimal that some digits with at most one point among them denote,
unless there is no digit. -/
def decimal? (lexeme : List Char) : Option Decimal :=
  let whole := lexeme.takeWhile (· != '.')
  let fraction := (lexeme.dropWhile (· != '.')).drop 1
  if whole.isEmpty && fraction.isEmpty then none
  else some ⟨integerValue 10 (whole ++ fraction), -(fraction.length : Int)⟩

/-- The integer of at most 64 bits that some digits of a radix denote, if they
denote one. -/
def word? (radix : Nat) (lexeme : List Char) : Option Nat :=
  if lexeme.isEmpty then none
  else if integerValue radix lexeme < 0x10000000000000000 then some (integerValue radix lexeme)
  else none

/-- The value of a number in a form, if it has one. -/
def value? (form : NumberForm) (lexeme : List Char) : Option Binary64 :=
  if form.hasPoint then (decimal? lexeme).map (·.toBinary64 false)
  else (word? form.radix lexeme).map Binary64.ofNat

end Literal

/-- The value of a number token, if it has one. -/
def Token.value? (t : Token) : Option Binary64 := Literal.value? t.form t.lexeme.toList

end LineCalculator
