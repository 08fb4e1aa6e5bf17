import LineCalculator.Evaluation.Evaluate

/-!
# Runs of operators, one operator at a time

`Expr.evaluate` peels a whole run of operators before it evaluates anything.
That is what keeps a long run from taking room, and it is also what keeps a
proof from following the expression: the operands of a run are not the operands
of its outermost operator.  This module puts the two views together once, so
that no later proof has to look at a peeled run.

## What a run looks like from outside

Peeling an operand that goes on with the run puts its operators in front of the
ones peeled before, so evaluating the run is evaluating the operand and then
applying the outermost operator (`evaluate_unary`, `evaluate_binary`).  The one
trace that the peeling leaves is the room: an operand that goes on with the run
has the room that the run has, and any other operand has two units less
(`signRoom`, `linkRoom`).

## Induction

A call holds a list of expressions, so the induction principle that Lean makes
for `Expr` has a second motive for lists.  `Expr.inductOn` has one motive, and
in the case of a call the hypothesis for every argument.
-/

namespace LineCalculator

namespace Expr

/-- Induction over an expression, with a hypothesis for every argument of a
call. -/
@[elab_as_elim, induction_eliminator]
theorem inductOn {motive : Expr → Prop} (literal : ∀ value, motive (.literal value))
    (var : ∀ name, motive (.var name))
    (unary : ∀ op operand, motive operand → motive (.unary op operand))
    (binary : ∀ op left right, motive left → motive right → motive (.binary op left right))
    (assign : ∀ name value, motive value → motive (.assign name value))
    (call : ∀ name arguments, (∀ e ∈ arguments, motive e) → motive (.call name arguments)) :
    ∀ e, motive e
  | .literal value => literal value
  | .var name => var name
  | .unary op operand =>
    unary op operand (inductOn literal var unary binary assign call operand)
  | .binary op left right =>
    binary op left right (inductOn literal var unary binary assign call left)
      (inductOn literal var unary binary assign call right)
  | .assign name value =>
    assign name value (inductOn literal var unary binary assign call value)
  | .call name arguments =>
    call name arguments fun e _ => inductOn literal var unary binary assign call e

/-! ## Peeling behind what has been peeled -/

theorem peelSigns_append (inner outer : List UnaryOp) (e : Expr) :
    peelSigns (inner ++ outer) e = ((peelSigns inner e).1 ++ outer, (peelSigns inner e).2) := by
  fun_induction peelSigns inner e with
  | case1 inner op operand ih => exact ih
  | case2 inner e hne =>
    cases e with
    | unary op operand => exact absurd rfl (hne op operand)
    | _ => rfl

theorem peelLinks_append (inner outer : List (BinaryOp × Expr)) (e : Expr) :
    peelLinks (inner ++ outer) e = ((peelLinks inner e).1, (peelLinks inner e).2 ++ outer) := by
  fun_induction peelLinks inner e with
  | case1 inner op left right ih => exact ih
  | case2 inner e hne =>
    cases e with
    | binary op left right => exact absurd rfl (hne op left right)
    | _ => rfl

/-! ## The room of an operand -/

/-- The room that the operand of a unary operator has, where an operand that
ends the run has the given room. -/
def signRoom (room : Nat) : Expr → Nat
  | .unary _ _ => room + 2
  | _ => room

/-- The room that the left operand of a binary operator has, where an operand
that ends the run has the given room. -/
def linkRoom (room : Nat) : Expr → Nat
  | .binary _ _ _ => room + 2
  | _ => room

/-! ## The outermost operator -/

variable {cost : Nat}

/-- What a sign does to the value of what stands behind it. -/
def applySign (value : Binary64) (op : UnaryOp) : Binary64 := op.apply value

/-- A run of unary operators applies its outermost one last. -/
theorem evaluate_unary (room : Nat) (op : UnaryOp) (operand : Expr) :
    evaluate cost (room + 2) (.unary op operand) = (do
      let value ← evaluate cost (signRoom room operand) operand
      pure (op.apply value)) := by
  cases operand with
  | unary inner operand =>
    have hpeel : peelSigns [inner, op] operand =
        ((peelSigns [inner] operand).1 ++ [op], (peelSigns [inner] operand).2) :=
      peelSigns_append [inner] [op] operand
    show (do
        let value ← evaluate cost room (peelSigns [inner, op] operand).2
        pure ((peelSigns [inner, op] operand).1.foldl applySign value)) =
      (do
        let value ← (do
          let value ← evaluate cost room (peelSigns [inner] operand).2
          pure ((peelSigns [inner] operand).1.foldl applySign value))
        pure (applySign value op))
    rw [hpeel, bind_assoc]
    simp only [List.foldl_append, List.foldl_cons, List.foldl_nil, pure_bind]
  | _ => rfl

/-- What a link of a run of binary operators does to the value of what stands
before it. -/
def applyLink (cost room : Nat) (value : Binary64) (link : BinaryOp × Expr) :
    Evaluation Binary64 := do
  let operand ← evaluate cost room link.2
  Evaluation.ofExcept (link.1.apply value operand)

/-- A run of binary operators applies its outermost one last, and evaluates the
right operand of that one after everything before it. -/
theorem evaluate_binary (room : Nat) (op : BinaryOp) (left right : Expr) :
    evaluate cost (room + 2) (.binary op left right) = (do
      let x ← evaluate cost (linkRoom room left) left
      let y ← evaluate cost room right
      Evaluation.ofExcept (op.apply x y)) := by
  cases left with
  | binary inner first second =>
    have hpeel : peelLinks [(inner, second), (op, right)] first =
        ((peelLinks [(inner, second)] first).1,
          (peelLinks [(inner, second)] first).2 ++ [(op, right)]) :=
      peelLinks_append [(inner, second)] [(op, right)] first
    show (do
        let value ← evaluate cost room (peelLinks [(inner, second), (op, right)] first).1
        (peelLinks [(inner, second), (op, right)] first).2.foldlM (applyLink cost room) value) =
      (do
        let x ← (do
          let value ← evaluate cost room (peelLinks [(inner, second)] first).1
          (peelLinks [(inner, second)] first).2.foldlM (applyLink cost room) value)
        applyLink cost room x (op, right))
    rw [hpeel, bind_assoc]
    simp only [List.foldlM_append, List.foldlM_cons, List.foldlM_nil, bind_pure]
  | _ =>
    show (do
        let value ← evaluate cost room _
        List.foldlM (applyLink cost room) value [(op, right)]) = _
    simp only [List.foldlM_cons, List.foldlM_nil, bind_pure]
    rfl

end Expr

end LineCalculator
