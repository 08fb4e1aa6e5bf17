import LineCalculator.Binary64.Rounding

/-!
# The exact operations, rounded

Addition, multiplication, division and the truncated remainder.  Each one
computes with the integers that its operands denote and rounds the exact result
once; the special values are the first cases of each definition.  Comparing two
numbers rounds nothing.

## Signs of zero

A product or a quotient takes its sign from its operands whatever its magnitude,
so an underflow keeps it.  A sum that is exactly zero is positive unless both
operands are negative, in which case both were negative zeros.  A remainder
takes the sign of the dividend.
-/

namespace LineCalculator

namespace Binary64

/-- The sum of two numbers. -/
def add : Binary64 → Binary64 → Binary64
  | nan, _ => nan
  | _, nan => nan
  | infinite s, infinite t => if s = t then infinite s else nan
  | infinite s, finite _ _ => infinite s
  | finite _ _, infinite t => infinite t
  | finite s a, finite t b =>
    ofUnits (s && t) (signed s (magnitude a) + signed t (magnitude b))

/-- The difference of two numbers: the sum with the second one's sign turned
round. -/
def sub (x y : Binary64) : Binary64 := add x y.neg

/-- The product of two numbers.  An infinity times a zero has no value. -/
def mul : Binary64 → Binary64 → Binary64
  | nan, _ => nan
  | _, nan => nan
  | infinite s, infinite t => infinite (s != t)
  | infinite s, finite t b => if b.val = 0 then nan else infinite (s != t)
  | finite s a, infinite t => if a.val = 0 then nan else infinite (s != t)
  | finite s a, finite t b =>
    ofUnitQuotient (s != t) (magnitude a * magnitude b) unitsPerOne

/-- The quotient of two numbers.  A non-zero number over a zero is an infinity,
and a zero over a zero has no value. -/
def div : Binary64 → Binary64 → Binary64
  | nan, _ => nan
  | _, nan => nan
  | infinite _, infinite _ => nan
  | infinite s, finite t _ => infinite (s != t)
  | finite s _, infinite t => zero (s != t)
  | finite s a, finite t b =>
    if b.val = 0 then if a.val = 0 then nan else infinite (s != t)
    else ofUnitQuotient (s != t) (magnitude a * unitsPerOne) (magnitude b)

/-- What is left of the first number after taking away the second as often as
the truncated quotient says, with the sign of the first.  There is no such
number when the dividend is infinite or the divisor is zero; a not-a-number
operand is handed on. -/
def remainder? : Binary64 → Binary64 → Option Binary64
  | nan, _ => some nan
  | _, nan => some nan
  | infinite _, _ => none
  | finite s a, infinite _ => some (finite s a)
  | finite s a, finite _ b =>
    if b.val = 0 then none
    else some (ofUnitQuotient s (magnitude a % magnitude b) 1)

/-- Whether a number is at most another one.  The two zeros are at most each
other, and not-a-number is at most nothing and nothing is at most it. -/
def le : Binary64 → Binary64 → Bool
  | nan, _ => false
  | _, nan => false
  | infinite s, infinite t => s || !t
  | infinite s, finite _ _ => s
  | finite _ _, infinite t => !t
  | finite s a, finite t b => decide (signed s (magnitude a) ≤ signed t (magnitude b))

end Binary64

end LineCalculator
