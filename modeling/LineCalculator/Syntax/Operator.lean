/-!
# Operators

The operators of expressions, with the two things a reader has to know of each:
how it is spelled and how tightly it binds.

Binding is a level from zero, the loosest, to six.  All operators group to the
left, the power too, and unary operators bind more tightly than any of them, so
a level is all that a pair of neighbouring operators needs to be told apart.
-/

namespace LineCalculator

/-- An operator between two operands. -/
inductive BinaryOp where
  | add | subtract | multiply | divide | modulo | power
  | bitAnd | bitOr | bitXor | shiftLeft | shiftRight
  deriving DecidableEq

/-- An operator before its operand. -/
inductive UnaryOp where
  | negate | complement
  deriving DecidableEq

namespace BinaryOp

/-- All binary operators. -/
def all : List BinaryOp :=
  [add, subtract, multiply, power, divide, modulo, bitXor, bitAnd, bitOr, shiftLeft, shiftRight]

theorem mem_all (op : BinaryOp) : op ∈ all := by cases op <;> decide

/-- How an operator is spelled. -/
def symbol : BinaryOp → List Char
  | add => ['+']
  | subtract => ['-']
  | multiply => ['*']
  | divide => ['/']
  | modulo => ['%']
  | power => ['*', '*']
  | bitAnd => ['&']
  | bitOr => ['|']
  | bitXor => ['^']
  | shiftLeft => ['<', '<']
  | shiftRight => ['>', '>']

/-- The name of an operator's spelling, as messages give it. -/
def spelledName : BinaryOp → String
  | add => "PLUS"
  | subtract => "MINUS"
  | multiply => "STAR"
  | divide => "SLASH"
  | modulo => "PERCENT"
  | power => "STAR_X2"
  | bitAnd => "AMPERSAND"
  | bitOr => "PIPE"
  | bitXor => "CARET"
  | shiftLeft => "LEFT_ANGLE_BRACKET_X2"
  | shiftRight => "RIGHT_ANGLE_BRACKET_X2"

/-- The name of an operator by what it does, as an outline gives it. -/
def name : BinaryOp → String
  | add => "PLUS"
  | subtract => "MINUS"
  | multiply => "MULTIPLY"
  | divide => "DIVIDE"
  | modulo => "MODULO"
  | power => "EXPONENT"
  | bitAnd => "BIT_AND"
  | bitOr => "BIT_OR"
  | bitXor => "BIT_XOR"
  | shiftLeft => "LEFT_SHIFT"
  | shiftRight => "RIGHT_SHIFT"

/-- The number of binding levels. -/
def levels : Nat := 7

/-- How tightly an operator binds, from zero for the loosest. -/
def level : BinaryOp → Nat
  | bitOr => 0
  | bitXor => 1
  | bitAnd => 2
  | shiftLeft | shiftRight => 3
  | add | subtract => 4
  | multiply | divide | modulo => 5
  | power => 6

theorem level_lt_levels (op : BinaryOp) : op.level < levels := by cases op <;> decide

end BinaryOp

/-- The name of a unary operator by what it does, as an outline gives it. -/
def UnaryOp.name : UnaryOp → String
  | negate => "NEGATE"
  | complement => "NOT"

end LineCalculator
