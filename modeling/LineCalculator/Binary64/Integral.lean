import LineCalculator.Binary64.Arithmetic

/-!
# Whole numbers among the binary numbers

Which numbers are whole, the integers they are, and the three ways of going to a
whole number: down, up, and to the nearest with halves going away from zero.

Going down or up works on the count of units and is one integer division by
`unitsPerOne`.  Going to the nearest goes down in magnitude, subtracts what it
has come to, and adds one if a half or more is left; the subtraction is that of
numbers, not of integers.  The three differ in what becomes of a sign when the
result is zero: going down or up yields an integer, which has no sign to lose,
while going to the nearest keeps the sign of its argument.
-/

namespace LineCalculator

namespace Binary64

/-- The integer below or at a count of units, in whole ones. -/
def floorUnits (n : Int) : Int := n / (unitsPerOne : Int)

/-- The integer above or at a count of units, in whole ones. -/
def ceilUnits (n : Int) : Int := -((-n) / (unitsPerOne : Int))

/-- The number one half. -/
def half : Binary64 := finite false ⟨0x3fe0000000000000, by decide⟩

/-- The integer nearest to a number that is not negative and has the given
integer below or at it, a half going up. -/
def nearestInteger (x : Binary64) (whole : Int) : Int :=
  if half.le (x.sub (ofInt whole)) then whole + 1 else whole

/-- The greatest whole number that is not above the given one.  Values that are
not finite are handed on. -/
def floor : Binary64 → Binary64
  | finite negative code => ofInt (floorUnits (signed negative (magnitude code)))
  | x => x

/-- The least whole number that is not below the given one.  Values that are not
finite are handed on. -/
def ceil : Binary64 → Binary64
  | finite negative code => ofInt (ceilUnits (signed negative (magnitude code)))
  | x => x

/-- The nearest whole number, halves going away from zero, with the sign of the
argument also when it is zero.  Values that are not finite are handed on. -/
def round : Binary64 → Binary64
  | finite negative code =>
    (ofInt (nearestInteger (finite false code) (floorUnits (magnitude code)))).withSign negative
  | x => x

/-- The integer that a number is, if it is one. -/
def toInt? : Binary64 → Option Int
  | finite negative code =>
    if magnitude code % unitsPerOne = 0 then
      some (signed negative (magnitude code / unitsPerOne))
    else none
  | _ => none

/-- The whole part of a finite number, its fraction cut off. -/
def truncate? : Binary64 → Option Int
  | finite negative code => some (signed negative (magnitude code / unitsPerOne))
  | _ => none

end Binary64

end LineCalculator
