import LineCalculator.Binary64.Rounding

/-!
# Decimal numbers and the shortest one that reads back

A decimal is an integer significand with a power of ten.  Reading one is a
single rounding.  Writing a binary number goes the other way: of all decimals
that read back as it, the one with the fewest digits, and of those the nearest.

## Where the candidates come from

A finite magnitude is a whole number of units `2 ^ -1074`, so five to the 1074th
times its count of units is its exact expansion, counted in `10 ^ -1074`.
Cutting digits off that integer from the right gives its two neighbours on a
coarser decimal grid: what is left, and what is left plus one.  If any point of
a grid reads back as the number, one of these two does, because reading is
monotone and the two enclose the number.

So the search cuts off as many digits as it can, all but one to begin with, and
puts them back one at a time until a neighbour reads back.  It needs no bound on
the digits: with nothing cut off the expansion is exact, and that is where the
search would end.
-/

namespace LineCalculator

/-- A non-negative decimal number, `digits * 10 ^ exponent`. -/
structure Decimal where
  /-- The significand. -/
  digits : Nat
  /-- The power of ten. -/
  exponent : Int
  deriving DecidableEq

namespace Decimal

/-- The number nearest to a decimal, with a sign put before it. -/
def toBinary64 (negative : Bool) (d : Decimal) : Binary64 :=
  if d.exponent < 0 then
    Binary64.ofUnitQuotient negative (d.digits * Binary64.unitsPerOne)
      (Nat.pow 10 (-d.exponent).toNat)
  else
    Binary64.ofUnitQuotient negative
      (d.digits * Nat.pow 10 d.exponent.toNat * Binary64.unitsPerOne) 1

/-- A count of units written out exactly, as an integer multiple of `10 ^
-1074`. -/
def expansion (units : Nat) : Nat := units * Nat.pow 5 1074

/-- What is left of an expansion when some of its last digits are cut off. -/
def below (whole dropped : Nat) : Decimal :=
  ⟨whole / Nat.pow 10 dropped, (dropped : Int) - 1074⟩

/-- The next point after `below` on the same grid. -/
def above (whole dropped : Nat) : Decimal :=
  ⟨whole / Nat.pow 10 dropped + 1, (dropped : Int) - 1074⟩

/-- Whether the upper neighbour of an expansion is the one to take of two that
both read back: it is the nearer one, or it is as near and even. -/
def prefersAbove (whole dropped : Nat) : Bool :=
  let rest := whole % Nat.pow 10 dropped
  Nat.pow 10 dropped < 2 * rest ||
    (2 * rest == Nat.pow 10 dropped && whole / Nat.pow 10 dropped % 2 == 1)

/-- The neighbour of an expansion to take when some of its digits are cut off,
if one reads back. -/
def neighbour? (readsBack : Decimal → Bool) (whole dropped : Nat) : Option Decimal :=
  match readsBack (below whole dropped), readsBack (above whole dropped) with
  | true, true =>
    some (if prefersAbove whole dropped then above whole dropped else below whole dropped)
  | true, false => some (below whole dropped)
  | false, true => some (above whole dropped)
  | false, false => none

/-- The neighbour found by cutting off at most the given number of digits, and
as many of them as possible. -/
def search (readsBack : Decimal → Bool) (whole : Nat) : Nat → Decimal
  | 0 => below whole 0
  | dropped + 1 =>
    match neighbour? readsBack whole (dropped + 1) with
    | some d => d
    | none => search readsBack whole dropped

/-- The decimal with the fewest digits that reads back as the magnitude of a
rank, the nearest of several. -/
def shortest (code : Fin Binary64.infinityCode) : Decimal :=
  let whole := expansion (Binary64.magnitude code)
  search (fun d => d.toBinary64 false == Binary64.finite false code) whole
    ((Nat.toDigits 10 whole).length - 1)

end Decimal

end LineCalculator
