import LineCalculator.Decimal.Shortest
import LineCalculator.Binary64.Integral

/-!
# Numbers as text

The two ways in which the calculator writes a number.

`Binary64.plain` writes the shortest decimal: positionally while the point
stands inside the digits or near them, in scientific form beyond.  The debug
trace uses it.

`Binary64.result` is how a result is shown.  A whole number is written out in
full, whatever its size and without a fraction; every other value is written as
`plain` writes it.  The exact integer goes with its sign, and zero keeps the
sign it has, so that no two numbers share a text.
-/

namespace LineCalculator

/-- When a decimal is written positionally: while its first digit stands after
the lowest place and before the highest, counted from the point. -/
structure PlaceRange where
  /-- The lowest position of the point, relative to the first digit, that is
  still written out. -/
  lowest : Int
  /-- The highest such position. -/
  highest : Int

/-- Numbers from `0.0001` up to, but not including, `10 ^ 16` are written
positionally. -/
def PlaceRange.standard : PlaceRange := ⟨-3, 16⟩

namespace Decimal

/-- The digits of a decimal, without those zeros at the end that only fill
places. -/
def significant (d : Decimal) : List Char :=
  ((Nat.toDigits 10 d.digits).reverse.dropWhile (· == '0')).reverse

/-- Where the point stands, counted from before the first digit. -/
def point (d : Decimal) : Int := (Nat.toDigits 10 d.digits).length + d.exponent

/-- The digits written out around the point, with at least one on either
side. -/
def positional (digits : List Char) (point : Int) : List Char :=
  if point ≤ 0 then
    '0' :: '.' :: (List.replicate (-point).toNat '0' ++ digits)
  else
    let whole := digits.take point.toNat
    let fraction := digits.drop point.toNat
    whole ++ List.replicate (point.toNat - digits.length) '0' ++
      '.' :: (if fraction.isEmpty then ['0'] else fraction)

/-- The digits with one before the point and a power of ten of at least two
digits after them. -/
def scientific (digits : List Char) (point : Int) : List Char :=
  let exponent := point - 1
  let size := Nat.toDigits 10 exponent.natAbs
  digits.take 1 ++ (if digits.length ≤ 1 then [] else '.' :: digits.drop 1) ++
    'e' :: (if exponent < 0 then '-' else '+') ::
      (if size.length < 2 then '0' :: size else size)

/-- A positive decimal as text. -/
def layout (range : PlaceRange) (d : Decimal) : List Char :=
  if range.lowest ≤ d.point && d.point ≤ range.highest then
    positional d.significant d.point
  else
    scientific d.significant d.point

end Decimal

namespace Binary64

/-- The sign as it is written. -/
def signText (negative : Bool) : List Char := if negative then ['-'] else []

/-- The shortest decimal text of a number. -/
def plain : Binary64 → List Char
  | nan => ['n', 'a', 'n']
  | infinite negative => signText negative ++ ['i', 'n', 'f']
  | finite negative code =>
    signText negative ++
      if code.val = 0 then ['0', '.', '0']
      else (Decimal.shortest code).layout PlaceRange.standard

/-- The text in which a result is shown. -/
def result : Binary64 → List Char
  | finite negative code =>
    if magnitude code % unitsPerOne = 0 then
      signText negative ++ Nat.toDigits 10 (magnitude code / unitsPerOne)
    else plain (finite negative code)
  | x => plain x

end Binary64

end LineCalculator
