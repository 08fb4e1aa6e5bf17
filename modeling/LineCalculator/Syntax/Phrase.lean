import LineCalculator.Binary64.Power
import LineCalculator.Syntax.Expr
import LineCalculator.Syntax.Feed
import LineCalculator.Token.Literal

/-!
# Reading expressions

Expressions are read by descent: a phrase of one kind is read with the help of
readers for the kinds of phrases it is made of.  Each section below reads one
kind and takes the readers of its parts as arguments, so that it says on its own
what the kind looks like; `phrase` ties them together.

## A missing right operand

Where an operator has been read and no right operand follows, what stood to the
left of the operator is kept and reading goes on behind whatever was drawn in
search of the operand.  The missing operand has been reported by then.  Every
other missing part refuses the whole phrase.

## Room

Phrases nest, and the room for nesting is limited: each phrase takes one unit of
what the phrase around it had left.  Runs of operators, signs and arguments do
not nest and are read in loops.  The loops are bounded by the number of tokens,
`supply`, of which every turn draws one.
-/

namespace LineCalculator

namespace Reader

/-! ### Binary operators of one level -/

/-- Goes on with what has been read of a run of operators of a level. -/
def links (level : Nat) (operand : Reader Expr) : (supply : Nat) → Expr → Reader Expr
  | 0, left => pure left
  | supply + 1, left => do
    match ← draw with
    | none => pure left
    | some t =>
      match t.kind.operatorAt? level with
      | none =>
        handBack t
        pure left
      | some op =>
        match ← optional operand with
        | none => pure left
        | some right => links level operand supply (.binary op left right)

/-- Reads operands with operators of a level between them, grouped to the
left. -/
def chain (supply level : Nat) (operand : Reader Expr) : Reader Expr := do
  links level operand supply (← operand)

/-! ### Unary operators -/

/-- Draws unary operators as long as there are any, and yields them after the
ones given, the last one first. -/
def signs : (supply : Nat) → List UnaryOp → Reader (List UnaryOp)
  | 0, drawn => pure drawn
  | supply + 1, drawn => do
    match ← draw with
    | none => pure drawn
    | some t =>
      match t.kind.unary? with
      | some op => signs supply (op :: drawn)
      | none =>
        handBack t
        pure drawn

/-- Reads an operand with any number of unary operators before it; the nearest
to the operand applies first. -/
def signed (supply : Nat) (operand : Reader Expr) : Reader Expr := do
  let drawn ← signs supply []
  let e ← operand
  pure (drawn.foldl (fun e op => .unary op e) e)

/-! ### Operands -/

/-- Reads the bracket that closes a phrase. -/
def closeBracket : Reader Unit := do
  let t ← expect
  if t.kind = .closeBracket then pure () else refuse (.unexpectedToken t)

/-- Reads further arguments after the ones given, the last one first, up to and
with the closing bracket. -/
def moreArguments (argument : Reader Expr) : (supply : Nat) → List Expr → Reader (List Expr)
  | 0, _ => refuseEnd
  | supply + 1, read => do
    let e ← argument
    let t ← expect
    match t.kind with
    | .closeBracket => pure (e :: read).reverse
    | .comma => moreArguments argument supply (e :: read)
    | _ => refuse (.unexpectedToken t)

/-- Reads the arguments of a call after its opening bracket, up to and with the
closing one. -/
def arguments (supply : Nat) (argument : Reader Expr) : Reader (List Expr) := do
  match ← draw with
  | none => moreArguments argument supply []
  | some t =>
    if t.kind = .closeBracket then pure []
    else
      handBack t
      moreArguments argument supply []

/-- Reads a number, a variable, a call, or an expression in brackets. -/
def primary (bracketed : Reader Expr) (arguments : Reader (List Expr)) : Reader Expr := do
  let t ← expect
  match t.kind with
  | .number =>
    match t.value? with
    | some value => pure (.literal value)
    | none => refuse (.invalidNumber t)
  | .identifier =>
    match ← draw with
    | none => pure (.var t.lexeme)
    | some following =>
      if following.kind = .openBracket then
        pure (.call t.lexeme (← arguments))
      else
        handBack following
        pure (.var t.lexeme)
  | .openBracket =>
    let e ← bracketed
    closeBracket
    pure e
  | _ => refuse (.unexpectedToken t)

/-! ### Assignments -/

/-- The assignment of a variable's value and another expression, combined. -/
def updated (name : String) (op : BinaryOp) (e : Expr) : Expr :=
  .assign name (.binary op (.var name) e)

/-- Reads an expression of operators and, if it is a variable that a sign of
assignment follows, the value it is given. -/
def assignment (target value : Reader Expr) : Reader Expr := do
  let e ← target
  match e with
  | .var name =>
    match ← draw with
    | none => pure e
    | some t =>
      match t.kind with
      | .equals => return .assign name (← value)
      | .compound op => return updated name op (← value)
      | .increment => return updated name .add (.literal Binary64.one)
      | .decrement => return updated name .subtract (.literal Binary64.one)
      | _ =>
        handBack t
        pure e
  | _ => pure e

end Reader

/-! ### All phrases together -/

/-- The kinds of phrases. -/
inductive Phrase where
  | expression
  | assignment
  /-- Operators of a level or of tighter ones. -/
  | operation (level : Nat)
  | signed
  | primary
  | argument
  deriving DecidableEq

/-- Reads a phrase in the room given for it. -/
def Reader.phrase (supply : Nat) : (room : Nat) → Phrase → Reader Expr
  | 0, _ => overflow
  | room + 1, .expression => phrase supply room .assignment
  | room + 1, .assignment =>
    assignment (phrase supply room (.operation 0)) (phrase supply room .assignment)
  | room + 1, .operation level =>
    if level < BinaryOp.levels then
      chain supply level (phrase supply room (.operation (level + 1)))
    else phrase supply room .signed
  | room + 1, .signed => signed supply (phrase supply room .primary)
  | room + 1, .primary =>
    primary (phrase supply room .expression) (arguments supply (phrase supply room .argument))
  | room + 1, .argument => phrase supply room .expression

end LineCalculator
