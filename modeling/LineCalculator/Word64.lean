import LineCalculator.Binary64.Integral

/-!
# Bitwise operators on numbers

The bitwise operators read each operand as a signed 64-bit integer, combine the
integers, and read the result back as a number.  This module holds the way in,
which cuts off a fraction and stops at the ends of the range, the operators on
integers, and the reduction of an integer to 64 bits.

## Where words are needed and where integers do

The operators themselves know nothing of a width: they are operators on all
integers.  Conjunction, disjunction and exclusive disjunction go through the
binary digits, of which a negative integer has infinitely many ones.  A shift is
a multiplication or a division that rounds down, which repeats the sign.  What
any of them yields is reduced to 64 bits afterwards, once.

A distance is reduced before it is used, to its lowest six digits, so that a
negative one is one of the sixty-four too.
-/

namespace LineCalculator

namespace Word64

/-- The least signed 64-bit integer. -/
def minValue : Int := -0x8000000000000000

/-- The greatest signed 64-bit integer. -/
def maxValue : Int := 0x7fffffffffffffff

/-! ### From a number to an integer -/

/-- The first number beyond the range, `2 ^ 63`. -/
def upperEnd : Binary64 := Binary64.ofInt 0x8000000000000000

/-- The number at the lower end of the range, `-2 ^ 63`. -/
def lowerEnd : Binary64 := upperEnd.neg

/-- The signed 64-bit integer that a number stands for in a bitwise operation:
its whole part, the nearest end of the range when that lies outside, and zero
for not-a-number. -/
def ofBinary64 (x : Binary64) : Int :=
  if x.isNaN then 0
  else if upperEnd.le x then maxValue
  else if x.le lowerEnd then minValue
  else x.truncate?.getD 0

/-! ### Integers digit by digit -/

/-- The binary digits of an integer: the one that all but finitely many of them
are, and the natural number that has a one where a digit is the other. -/
def digits : Int → Bool × Nat
  | .ofNat n => (false, n)
  | .negSucc n => (true, n)

/-- The integer of some binary digits. -/
def ofDigits : Bool × Nat → Int
  | (false, n) => .ofNat n
  | (true, n) => .negSucc n

/-- Combines two integers digit by digit. -/
def digitwise (combine : Bool → Bool → Bool) (a b : Int) : Int :=
  let left := digits a
  let right := digits b
  let most := combine left.1 right.1
  ofDigits (most, Nat.bitwise (fun p q => combine (p != left.1) (q != right.1) != most)
    left.2 right.2)

/-- The digits set in both integers. -/
def and (a b : Int) : Int := digitwise (· && ·) a b

/-- The digits set in one integer or the other. -/
def or (a b : Int) : Int := digitwise (· || ·) a b

/-- The digits set in exactly one of the integers. -/
def xor (a b : Int) : Int := digitwise (· != ·) a b

/-- The integer with every digit turned round. -/
def complement (a : Int) : Int := -a - 1

/-! ### Shifts -/

/-- The distance that a shift by an integer goes. -/
def shiftDistance (b : Int) : Nat := (and b 63).toNat

/-- The integer moved up. -/
def shiftLeft (a b : Int) : Int := a * (Nat.pow 2 (shiftDistance b) : Nat)

/-- The integer moved down, its sign repeated. -/
def shiftRight (a b : Int) : Int := a / (Nat.pow 2 (shiftDistance b) : Nat)

/-! ### Words -/

/-- The signed 64-bit integer whose binary digits are the lowest 64 of an
integer. -/
def wrap (n : Int) : Int :=
  let word := and n 0xffffffffffffffff
  if maxValue < word then word - 0x10000000000000000 else word

/-- An operator on integers as an operator on numbers. -/
def lift (operator : Int → Int → Int) (x y : Binary64) : Binary64 :=
  Binary64.ofInt (wrap (operator (ofBinary64 x) (ofBinary64 y)))

end Word64

end LineCalculator
