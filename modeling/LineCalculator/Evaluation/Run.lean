import LineCalculator.Evaluation.Evaluate

/-!
# Running what was read

A run evaluates an expression, or forgets a variable, on behalf of somebody who
keeps the scope.  A run that fails with an error of the calculator leaves the
scope as it found it, whatever the expression had bound by then; only its
account of what was done still tells.  The one failure that is not such an error
leaves everything as it was when it happened.

A run that succeeds binds its value to the name `ans`.  That binding is not part
of the account, since no expression asked for it.
-/

namespace LineCalculator

/-- What comes of a run. -/
structure Run (α : Type) where
  outcome : Except Failure α
  /-- The scope after the run. -/
  scope : Scope
  /-- What was done to variables, undone or not. -/
  effects : Array Effect

namespace Run

/-- The name that the last value is bound to. -/
def answerName : String := "ans"

/-- The room in which an expression is evaluated: what is left of a thousand
units, without what the operators take. -/
def room : Nat := 988

/-- Closes an evaluation that began with the given layers. -/
def ofResult (saved : Layers) : EStateM.Result Failure Memory Binary64 → Run Binary64
  | .ok value m => ⟨.ok value, m.scope.assign answerName value, m.effects⟩
  | .error (.error e) m => ⟨.error (.error e), m.scope.restore saved, m.effects⟩
  | .error .domain m => ⟨.error .domain, m.scope, m.effects⟩

end Run

namespace Scope

/-- Runs an expression.  Keeping account of an assignment costs no room, unless
the account is written down. -/
def run (s : Scope) (e : Expr) (cost : Nat := 0) : Run Binary64 :=
  Run.ofResult s.snapshot (e.evaluate cost Run.room ⟨s, #[]⟩)

/-- Runs a request to forget a variable. -/
def runDelete (s : Scope) (name : String) : Run Unit :=
  match s.delete? name with
  | some after => ⟨.ok (), after, #[.deleted name]⟩
  | none => ⟨.error (.error (.undefinedVariable name)), s, #[]⟩

end Scope

end LineCalculator
