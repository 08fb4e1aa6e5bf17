import LineCalculator.Binary64.Arithmetic
import LineCalculator.Binary64.Power
import LineCalculator.Evaluation.Error
import LineCalculator.Scope.Layer
import LineCalculator.Syntax.Operator
import LineCalculator.Word64

/-!
# What operators, functions and constants stand for

The operators as operations on numbers, the four functions and the three
constants.

Division and remainder refuse a zero divisor before they look at anything else,
so they do so for a dividend that is not a number as well.  The remainder of an
infinite dividend is the one other result that does not exist.
-/

namespace LineCalculator

/-- The value of a binary operator. -/
def BinaryOp.apply (op : BinaryOp) (x y : Binary64) : Except Failure Binary64 :=
  match op with
  | .add => .ok (x.add y)
  | .subtract => .ok (x.sub y)
  | .multiply => .ok (x.mul y)
  | .divide => if y.isZero then .error (.error .divideByZero) else .ok (x.div y)
  | .modulo =>
    if y.isZero then .error (.error .divideByZero)
    else
      match x.remainder? y with
      | some r => .ok r
      | none => .error .domain
  | .power => .ok (x.pow y)
  | .bitAnd => .ok (Word64.lift Word64.and x y)
  | .bitOr => .ok (Word64.lift Word64.or x y)
  | .bitXor => .ok (Word64.lift Word64.xor x y)
  | .shiftLeft => .ok (Word64.lift Word64.shiftLeft x y)
  | .shiftRight => .ok (Word64.lift Word64.shiftRight x y)

/-- The value of a unary operator. -/
def UnaryOp.apply (op : UnaryOp) (x : Binary64) : Binary64 :=
  match op with
  | .negate => x.neg
  | .complement => Binary64.ofInt (Word64.complement (Word64.ofBinary64 x))

/-! ### Functions -/

/-- A function that expressions may call. -/
inductive Builtin where
  | abs | ceil | floor | round
  deriving DecidableEq

namespace Builtin

/-- The function of a name. -/
def ofName? : String → Option Builtin
  | "abs" => some abs
  | "ceil" => some ceil
  | "floor" => some floor
  | "round" => some round
  | _ => none

/-- How many arguments a function takes. -/
def arity : Builtin → Nat
  | abs | ceil | floor | round => 1

/-- The value of a function. -/
def apply (f : Builtin) (x : Binary64) : Binary64 :=
  match f with
  | abs => x.abs
  | ceil => x.ceil
  | floor => x.floor
  | round => x.round

end Builtin

/-! ### Constants -/

/-- The constants: the base of natural logarithms, the golden ratio and the
circle number, each the nearest number there is. -/
def constants : Layer :=
  Layer.ofList
    [("e", Binary64.ofBits 0x4005bf0a8b145769),
      ("phi", Binary64.ofBits 0x3ff9e3779b97f4a8),
      ("pi", Binary64.ofBits 0x400921fb54442d18)]

end LineCalculator
