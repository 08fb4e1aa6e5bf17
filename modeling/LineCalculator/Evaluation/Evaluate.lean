import LineCalculator.Evaluation.Operation
import LineCalculator.Scope.Basic
import LineCalculator.Syntax.Expr

/-!
# Evaluating expressions

An evaluation reads and binds variables as it goes, and it may fail at any point
with the bindings made so far in place.  So an evaluation is a function of the
memory it starts with, and yields the memory it ends with whether it succeeds or
not.  Undoing is left to whoever asked.

## Room

As for reading, the room for evaluating nested expressions is limited.  A run of
unary operators is peeled off and applied from the inside, and a run of binary
operators that nest to the left is peeled down to its first operand and folded
from there, so runs of any length take no more room than one operator does.
What nests otherwise is charged by kind: an assignment for its value one unit,
an operator for its operand two, and a call for its argument three.

Keeping account of an assignment may take room as well.  It is looked for when
the variable has its new value, and the evaluation goes no further without.
-/

namespace LineCalculator

/-- Something that an evaluation did to a variable. -/
inductive Effect where
  | assigned (name : String) (value : Binary64)
  | deleted (name : String)
  deriving DecidableEq

/-- What an evaluation works on. -/
structure Memory where
  /-- The variables. -/
  scope : Scope
  /-- What has been done so far. -/
  effects : Array Effect

/-- An evaluation. -/
abbrev Evaluation := EStateM Failure Memory

namespace Evaluation

variable {α : Type}

/-- The value of a name. -/
def lookup (name : String) : Evaluation Binary64 := fun m =>
  match m.scope.lookup? name with
  | some value => .ok value m
  | none => .error (.error (.undefinedVariable name)) m

/-- Binds a name and keeps account of it. -/
def assign (name : String) (value : Binary64) : Evaluation Unit := fun m =>
  .ok () ⟨m.scope.assign name value, m.effects.push (.assigned name value)⟩

/-- Binds a name and keeps account of it, unless there is less room than that
takes. -/
def assignWithin (cost room : Nat) (name : String) (value : Binary64) : Evaluation Unit := fun m =>
  if cost ≤ room then assign name value m
  else .error (.error .tooDeep) { m with scope := m.scope.assign name value }

/-- Fails with an error. -/
def fail (e : CalcError) : Evaluation α := fun m => .error (.error e) m

/-- A result that depends on no variable. -/
def ofExcept (result : Except Failure α) : Evaluation α := fun m =>
  match result with
  | .ok value => .ok value m
  | .error f => .error f m

end Evaluation

namespace Expr

/-- Peels the unary operators off an expression and puts them before the ones
given, so that the innermost comes first. -/
def peelSigns (outer : List UnaryOp) : Expr → List UnaryOp × Expr
  | .unary op operand => peelSigns (op :: outer) operand
  | e => (outer, e)

/-- Peels an expression down to the leftmost operand of its binary operators and
puts each operator, with its right operand, before the ones given, so that the
innermost comes first. -/
def peelLinks (outer : List (BinaryOp × Expr)) : Expr → Expr × List (BinaryOp × Expr)
  | .binary op left right => peelLinks ((op, right) :: outer) left
  | e => (e, outer)

/-- The value of an expression, computed in the room given.  Keeping account of an
assignment has its cost. -/
def evaluate (cost : Nat) : (room : Nat) → Expr → Evaluation Binary64
  | _ + 1, .literal value => pure value
  | _ + 1, .var name => Evaluation.lookup name
  | room + 1, .assign name e => do
    let value ← evaluate cost room e
    Evaluation.assignWithin cost room name value
    pure value
  | room + 2, .unary op operand => do
    let peeled := peelSigns [op] operand
    let value ← evaluate cost room peeled.2
    pure (peeled.1.foldl (fun value op => op.apply value) value)
  | room + 2, .binary op left right => do
    let peeled := peelLinks [(op, right)] left
    let value ← evaluate cost room peeled.1
    peeled.2.foldlM (fun value link => do
      let operand ← evaluate cost room link.2
      Evaluation.ofExcept (link.1.apply value operand)) value
  | room + 3, .call name arguments => do
    match Builtin.ofName? name with
    | none => Evaluation.fail (.undefinedFunction name)
    | some f =>
      match arguments with
      | [argument] => return f.apply (← evaluate cost room argument)
      | _ => Evaluation.fail (.arityMismatch name f.arity arguments.length)
  | _, _ => Evaluation.fail .tooDeep

end Expr

end LineCalculator
