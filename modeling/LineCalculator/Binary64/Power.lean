import LineCalculator.Binary64.Integral

/-!
# Powers

Raising to a power never fails.  What it yields at the special arguments is
fixed by the standard of the format, and all of that is decided here by cases;
only the power of two positive finite numbers, where no exact rule gives the
last digit, is left to the machine's own function.

The sign of a result comes from one question, whether the exponent is an odd
whole number: then the base's sign carries over, and otherwise it is lost.  A
negative finite base has no real power at a fractional exponent.
-/

namespace LineCalculator

namespace Binary64

/-- Whether a number is an odd integer. -/
def isOddInteger (x : Binary64) : Bool :=
  match x.toInt? with
  | some n => n % 2 != 0
  | none => false

/-- The number one. -/
def one : Binary64 := finite false ⟨0x3ff0000000000000, by decide⟩

/-- The power of two positive finite numbers, by the machine's function. -/
def positivePower (base exponent : Binary64) : Binary64 :=
  let power := (Float.ofBits (UInt64.ofNat base.toBits)).pow
    (Float.ofBits (UInt64.ofNat exponent.toBits))
  ofBits power.toBits.toNat

/-- A base raised to an infinite exponent: above one in magnitude it grows
without bound and below one it vanishes, or the other way round when the
exponent is negative. -/
def powInfinite (base : Binary64) (negativeExponent : Bool) : Binary64 :=
  match base with
  | nan => nan
  | infinite _ => if negativeExponent then zero false else infinite false
  | finite _ code =>
    if magnitude code = unitsPerOne then one
    else if decide (unitsPerOne < magnitude code) == negativeExponent then zero false
    else infinite false

/-- A base raised to a finite exponent other than zero. -/
def powFinite (base : Binary64) (exponent : Binary64) : Binary64 :=
  let negative := base.isNegative && exponent.isOddInteger
  match base with
  | nan => nan
  | infinite _ => if exponent.isNegative then zero negative else infinite negative
  | finite s code =>
    if code.val = 0 then
      if exponent.isNegative then infinite negative else zero negative
    else if s && exponent.toInt?.isNone then nan
    else (positivePower (finite false code) exponent).withSign negative

/-- The power of a base.  Anything to the power zero is one, and so is one to
any power, even where the other operand is not a number. -/
def pow (base exponent : Binary64) : Binary64 :=
  if exponent.isZero || base == one then one
  else match exponent with
    | nan => nan
    | infinite negative => powInfinite base negative
    | finite _ _ => powFinite base exponent

end Binary64

end LineCalculator
