/-!
# Why an evaluation fails

An evaluation fails in one of the ways that the language knows, or because a
remainder does not exist.  Only the first are errors of the calculator: they are
shown to whoever typed the line, and what the line had done is undone.
-/

namespace LineCalculator

/-- An error of the calculator. -/
inductive CalcError where
  /-- A name without a value. -/
  | undefinedVariable (name : String)
  /-- A call of something that is no function. -/
  | undefinedFunction (name : String)
  /-- A call with the wrong number of arguments. -/
  | arityMismatch (name : String) (expected found : Nat)
  | divideByZero
  /-- An expression that there is no room to evaluate. -/
  | tooDeep
  deriving DecidableEq

/-- A failure of an evaluation. -/
inductive Failure where
  | error (e : CalcError)
  /-- The remainder of an infinite dividend. -/
  | domain
  deriving DecidableEq

namespace CalcError

/-- Which way a number of arguments is wrong. -/
def amount (expected found : Nat) : String := if found < expected then "few" else "many"

/-- The message of an error. -/
def message : CalcError → String
  | undefinedVariable name => "Variable \"" ++ name ++ "\" is undefined"
  | undefinedFunction name => "Function \"" ++ name ++ "\" is undefined"
  | arityMismatch name expected found =>
    "Call to " ++ name ++ "() has too " ++ amount expected found ++ " parameters; expected " ++
      toString expected ++ " but found " ++ toString found ++ "."
  | divideByZero => "Cannot divide by zero"
  | tooDeep => "Expression is nested too deeply"

end CalcError

/-- The message of a failure. -/
def Failure.message : Failure → String
  | error e => e.message
  | domain => "math domain error"

end LineCalculator
