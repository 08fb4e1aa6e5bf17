import LineCalculator.Binary64.Basic
import LineCalculator.Syntax.Operator

/-!
# Expressions and lines

What a line of input says once its layout, its brackets and the spelling of its
numbers are gone.

An assignment is an expression with the value it binds, so it may stand wherever
an operand may.  A line is an expression or one of two requests that are not: to
end the session, and to forget a variable.
-/

namespace LineCalculator

/-- An expression. -/
inductive Expr where
  /-- A number written out. -/
  | literal (value : Binary64)
  /-- The value of a name. -/
  | var (name : String)
  /-- A unary operator applied to its operand. -/
  | unary (op : UnaryOp) (operand : Expr)
  /-- A binary operator applied to its operands. -/
  | binary (op : BinaryOp) (left right : Expr)
  /-- The binding of a name to a value, which is also the value of the whole. -/
  | assign (name : String) (value : Expr)
  /-- The call of a function. -/
  | call (name : String) (arguments : List Expr)

/-- A line of input. -/
inductive Line where
  /-- The request to end the session. -/
  | exit
  /-- The request to forget a variable. -/
  | delete (name : String)
  /-- An expression to evaluate. -/
  | expression (e : Expr)

namespace Expr

/-- The number of nodes of an expression. -/
def size : Expr → Nat
  | literal _ => 1
  | var _ => 1
  | unary _ operand => operand.size + 1
  | binary _ left right => left.size + right.size + 1
  | assign _ value => value.size + 1
  | call _ arguments => (arguments.map size).foldr (· + ·) 1

end Expr

/-- The number of nodes of a line. -/
def Line.size : Line → Nat
  | .expression e => e.size
  | _ => 1

end LineCalculator
