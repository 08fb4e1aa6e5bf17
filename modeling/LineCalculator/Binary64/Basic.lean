/-!
# Binary64 numbers as exact integers

Every number the calculator handles is a value of the 64-bit binary interchange
format.  This module gives that format as data a proof can open: a sign and a
position on the line of finite magnitudes, or an infinity, or the one
not-a-number.

## Why a position and not a significand with an exponent

The finite magnitudes of the format are finitely many and totally ordered, and
the bit pattern of a magnitude *is* its rank in that order.  So a finite number
is stored as a sign and a rank `code` below the first rank that is no longer
finite.  Nothing has to be kept normalised, and two finite numbers are equal as
data exactly when their bits are equal: `0` and `-0` differ, which the printed
results show.

## Why magnitudes are counted in the smallest one

Every finite magnitude is a whole multiple of the least positive one, `2 ^
-1074`.  `magnitude` says which multiple.  The rational a number denotes is
therefore `units / 2 ^ 1074` with an integer `units`, and addition, remainders,
floors and comparisons are integer arithmetic with no exponent in sight.

## Why one not-a-number

The format has many, told apart by a sign and a payload.  No operation of the
calculator reads either and no output shows them, so they are one value here,
and `toBits` writes the quiet one with an empty payload.
-/

namespace LineCalculator

/-- The rank after the last finite magnitude, which is also the bit pattern of
the positive infinity. -/
abbrev Binary64.infinityCode : Nat := 0x7ff0000000000000

/-- A number of the 64-bit binary format. -/
inductive Binary64 where
  /-- A finite number: its sign, and the rank of its magnitude among all finite
  ones. -/
  | finite (negative : Bool) (code : Fin Binary64.infinityCode)
  /-- An infinity of either sign. -/
  | infinite (negative : Bool)
  /-- The result of an operation that has no numeric one. -/
  | nan
  deriving DecidableEq

namespace Binary64

/-! ### The values of ranks -/

/-- The number of ranks in a block, `2 ^ 52`: as many as there are fractions of
52 binary digits. -/
abbrev blockSize : Nat := 0x10000000000000

/-- How many times the unit of the format, the least positive magnitude, goes
into one. -/
abbrev unitsPerOne : Nat := Nat.pow 2 1074

/-- The magnitude of a rank, counted in units.  The ranks below `blockSize` are
evenly spaced from zero on; from there each block starts at the next power of
two and is spaced twice as widely as the block before it. -/
def magnitude (code : Nat) : Nat :=
  if code < blockSize then code
  else (blockSize + code % blockSize) * Nat.pow 2 (code / blockSize - 1)

@[simp] theorem magnitude_zero : magnitude 0 = 0 := rfl

/-- The integer `n` with its sign turned round when `negative` is set. -/
def signed (negative : Bool) (n : Nat) : Int :=
  if negative then -(n : Int) else n

/-- The value of a number counted in units, or nothing for the infinities and
for not-a-number. -/
def units? : Binary64 → Option Int
  | finite negative code => some (signed negative (magnitude code))
  | _ => none

/-! ### Named numbers and signs -/

/-- Zero of either sign. -/
def zero (negative : Bool) : Binary64 :=
  finite negative ⟨0, by decide⟩

/-- Whether a number is a zero of either sign. -/
def isZero : Binary64 → Bool
  | finite _ code => code.val == 0
  | _ => false

/-- Whether a number is not-a-number. -/
def isNaN : Binary64 → Bool
  | nan => true
  | _ => false

/-- The sign as it is stored, also of a zero.  Not-a-number counts as
positive. -/
def isNegative : Binary64 → Bool
  | finite negative _ => negative
  | infinite negative => negative
  | nan => false

/-- The number with the sign `negative` and the magnitude of the given one. -/
def withSign (negative : Bool) : Binary64 → Binary64
  | finite _ code => finite negative code
  | infinite _ => infinite negative
  | nan => nan

/-- The number with its sign turned round, zeros included. -/
def neg (x : Binary64) : Binary64 := x.withSign (!x.isNegative)

/-- The number with its sign cleared. -/
def abs (x : Binary64) : Binary64 := x.withSign false

@[simp] theorem neg_neg (x : Binary64) : x.neg.neg = x := by
  cases x <;> simp [neg, withSign, isNegative]

@[simp] theorem abs_neg (x : Binary64) : x.neg.abs = x.abs := by
  cases x <;> rfl

/-! ### Bit patterns -/

/-- The bit pattern that stands for not-a-number. -/
def nanBits : Nat := 0x7ff8000000000000

/-- The weight of the sign bit, `2 ^ 63`. -/
def signBit : Nat := 0x8000000000000000

/-- The interchange bit pattern of a number, as an integer below `2 ^ 64`. -/
def toBits : Binary64 → Nat
  | finite negative code => (if negative then signBit else 0) + code
  | infinite negative => (if negative then signBit else 0) + infinityCode
  | nan => nanBits

/-- The number of a bit pattern.  Bits beyond the lowest 64 are ignored, and
every pattern above an infinity's is not-a-number. -/
def ofBits (bits : Nat) : Binary64 :=
  let negative := bits / signBit % 2 == 1
  let code := bits % signBit
  if h : code < infinityCode then finite negative ⟨code, h⟩
  else if code = infinityCode then infinite negative
  else nan

/-- A number is recovered from its bit pattern. -/
theorem ofBits_toBits (x : Binary64) : ofBits x.toBits = x := by
  cases x with
  | finite negative code =>
    have hc := code.isLt
    simp only [infinityCode] at hc
    cases negative
    · have h1 : (0 + code.val) % signBit = code.val := by simp only [signBit]; omega
      have h2 : (0 + code.val) / signBit % 2 = 0 := by simp only [signBit]; omega
      simp only [toBits, ofBits, Bool.false_eq_true, if_false, h1, h2]
      simp [infinityCode, hc]
    · have h1 : (signBit + code.val) % signBit = code.val := by simp only [signBit]; omega
      have h2 : (signBit + code.val) / signBit % 2 = 1 := by simp only [signBit]; omega
      simp only [toBits, ofBits, if_true, h1, h2]
      simp [infinityCode, hc]
  | infinite negative => cases negative <;> decide
  | nan => decide

end Binary64

end LineCalculator
