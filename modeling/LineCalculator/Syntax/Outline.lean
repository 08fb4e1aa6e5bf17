import LineCalculator.Decimal.Layout
import LineCalculator.Syntax.Expr
import LineCalculator.Text.Quoted

/-!
# Outlines

The outline of a line is the form in which a message shows one that was handed
over as a tree and not as text: every node by its kind, with its parts named and
in brackets.  Nothing reads outlines back.
-/

namespace LineCalculator

/-- A name between quotes. -/
def quotedName (name : String) : String := String.ofList (Text.quoted name.toList)

/-- The outline of an expression. -/
def Expr.outline : Expr → String
  | .literal value => "Literal(value=" ++ String.ofList value.plain ++ ")"
  | .var name => "Variable(name=" ++ quotedName name ++ ")"
  | .unary op operand =>
    "UnaryOperation(operator=" ++ op.name ++ ", operand=" ++ operand.outline ++ ")"
  | .binary op left right =>
    "BinaryOperation(left=" ++ left.outline ++ ", operator=" ++ op.name ++ ", right=" ++
      right.outline ++ ")"
  | .assign name value =>
    "Assignment(name=" ++ quotedName name ++ ", value=" ++ value.outline ++ ")"
  | .call name arguments =>
    "Call(name=" ++ quotedName name ++ ", params=[" ++
      ", ".intercalate (arguments.map outline) ++ "])"

/-- The outline of a line. -/
def Line.outline : Line → String
  | .exit => "Exit()"
  | .delete name => "DeleteVar(name=" ++ quotedName name ++ ")"
  | .expression e => e.outline

end LineCalculator
