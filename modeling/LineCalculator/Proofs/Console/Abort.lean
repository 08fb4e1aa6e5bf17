import LineCalculator.Console.Program
import LineCalculator.Proofs.Evaluation.DomainFailure

/-!
# When a program is aborted

A program takes a turn for every line, and a turn goes wrong in one of two ways.
An error of the calculator is printed, the scope is as it was, and the next line
has its turn.  A failure that is no such error ends the program, and what the
line had bound by then stays bound.

The main statement says exactly when the second happens.  It goes from the
operators, of which one has operands without a result, through the runs of
expressions, to the turns of a program and its ending.

## The turns of a program

Which turns a program takes, and in which scope each, depends on the turns
before: a turn hands on its scope, and a request to leave or a failure leaves the
rest without a turn.  `Program.turns` lists them without anything that is
printed or logged.  The threshold of the log has a say in them all the same, since
it leaves more or less room for the lines.
-/

namespace LineCalculator

/-! ## One turn -/

theorem TurnResult.ofOutcome_eq_aborted_iff {α : Type} {result : α → TurnResult}
    (hresult : ∀ a, result a ≠ .aborted) (outcome : Except Failure α) :
    TurnResult.ofOutcome result outcome = .aborted ↔ outcome = .error .domain := by
  cases outcome with
  | ok a => simp [TurnResult.ofOutcome, hresult]
  | error f => cases f <;> simp [TurnResult.ofOutcome]

/-- A variable can be forgotten, or it is not there and nothing changes. -/
theorem Scope.runDelete_cases (s : Scope) (name : String) :
    (s.runDelete name).outcome = .ok () ∨
      (s.runDelete name).outcome = .error (.error (.undefinedVariable name)) ∧
        (s.runDelete name).scope = s := by
  unfold runDelete
  cases s.delete? name with
  | some after => exact Or.inl rfl
  | none => exact Or.inr ⟨rfl, rfl⟩

/-- A turn is aborted when it runs an expression that fails without an error of
the calculator. -/
theorem Turn.result_eq_aborted_iff (threshold : LogLevel) (s : Scope) (text : String) :
    (Turn.take threshold s text).result = .aborted ↔
      ∃ e, (parse text threshold.readingRoom).line? = some (.expression e) ∧
        (s.run e threshold.accountCost).outcome = .error .domain := by
  simp only [Turn.take]
  cases hline : (parse text threshold.readingRoom).line? with
  | none => simp
  | some l =>
    cases l with
    | exit => simp
    | delete name =>
      rcases s.runDelete_cases name with hout | ⟨hout, -⟩
      · simp [hout, TurnResult.ofOutcome]
      · simp [hout, TurnResult.ofOutcome]
    | expression e =>
      have hvalue : ∀ v, TurnResult.value v ≠ .aborted := by simp
      have hiff :=
        TurnResult.ofOutcome_eq_aborted_iff hvalue (s.run e threshold.accountCost).outcome
      simpa using hiff

/-! ## All turns -/

namespace Program

/-- The turns for the expressions on the command line: the scope and the text of
each. -/
def expressionTurns (threshold : LogLevel) (s : Scope) : List String → List (Scope × String)
  | [] => []
  | text :: rest =>
    let turn := Turn.take threshold s text
    (s, text) :: if turn.result = .aborted then [] else expressionTurns threshold turn.scope rest

/-- The turns for the lines of an interactive session. -/
def lineTurns (threshold : LogLevel) (s : Scope) : List String → List (Scope × String)
  | [] => []
  | line :: rest =>
    if isBlankLine line then lineTurns threshold s rest
    else
      let turn := Turn.take threshold s line
      (s, line) :: match turn.result with
        | .leave => []
        | .aborted => []
        | _ => lineTurns threshold turn.scope rest

/-- The turns that the program takes. -/
def turns (threshold : LogLevel) (arguments : Arguments) (input : String) :
    List (Scope × String) :=
  match arguments with
  | .expressions [] => lineTurns threshold Session.initial (linesOf input)
  | .expressions texts => expressionTurns threshold Session.initial texts
  | _ => []

/-- A turn that ends the program. -/
def IsAborted (threshold : LogLevel) (turn : Scope × String) : Prop :=
  (Turn.take threshold turn.1 turn.2).result = .aborted

theorem runExpressions_eq_aborted_iff (settings : Settings) (s : Scope) (shown : Transcript)
    (texts : List String) :
    (runExpressions settings s shown texts).ending = .aborted ↔
      ∃ turn ∈ expressionTurns settings.threshold s texts, IsAborted settings.threshold turn := by
  induction texts generalizing s shown with
  | nil => simp [runExpressions, expressionTurns]
  | cons text rest ih =>
    by_cases h : (Turn.take settings.threshold s text).result = .aborted
    · simp [runExpressions, expressionTurns, IsAborted, h]
    · simp [runExpressions, expressionTurns, IsAborted, h, ih]

theorem runLines_eq_aborted_iff (settings : Settings) (s : Scope) (shown : Transcript)
    (lines : List String) :
    (runLines settings s shown lines).ending = .aborted ↔
      ∃ turn ∈ lineTurns settings.threshold s lines, IsAborted settings.threshold turn := by
  induction lines generalizing s shown with
  | nil => simp [runLines, lineTurns]
  | cons line rest ih =>
    by_cases hblank : isBlankLine line = true
    · simp [runLines, lineTurns, hblank, ih]
    · cases h : (Turn.take settings.threshold s line).result <;>
        simp [runLines, lineTurns, hblank, IsAborted, h, ih]

theorem runWith_eq_aborted_iff (settings : Settings) (arguments : Arguments) (input : String) :
    (runWith settings arguments input).ending = .aborted ↔
      ∃ turn ∈ turns settings.threshold arguments input, IsAborted settings.threshold turn := by
  unfold runWith turns
  split
  · simp
  · simp
  · simp
  · exact runLines_eq_aborted_iff settings _ _ _
  · rename_i texts hne
    rw [runExpressions_eq_aborted_iff]
    split
    · rename_i heq
      exact absurd (Arguments.expressions.inj heq) (by simpa using hne)
    · rename_i heq
      rw [Arguments.expressions.inj heq]
    · rename_i heq
      exact absurd rfl (heq texts)

theorem run_eq_aborted_iff (environment : Environment) (arguments : List String)
    (input : String) :
    (run environment arguments input).ending = .aborted ↔
      ∃ settings, Settings.ofEnvironment environment = .ok settings ∧
        ∃ turn ∈ turns settings.threshold (Arguments.ofList arguments) input,
          IsAborted settings.threshold turn := by
  unfold run
  cases Settings.ofEnvironment environment with
  | error name => simp
  | ok settings => simp [runWith_eq_aborted_iff]

end Program

/-- **Only a remainder of an infinite dividend gets past the calculator.**  Among
the operators, division and remainder fail for a zero divisor, remainder also for
an infinite dividend, and nothing else fails at all.  A run of an expression ends
with a value, or with an error of the calculator and the scope as it was, unless
there is room for it to come to such a remainder; then it fails with no error of
the calculator and leaves the scope of that moment.  Forgetting a variable always
ends in the first way.  A program is aborted exactly when one of its turns runs
an expression that ends in the second. -/
theorem aborted_iff_infinite_dividend (op : BinaryOp) (x y : Binary64) (f : Failure) (s : Scope)
    (e : Expr) (cost : Nat) (name : String) (environment : Environment) (arguments : List String)
    (input : String) :
    (op.apply x y = .error f ↔
      f = .error .divideByZero ∧ (op = .divide ∨ op = .modulo) ∧ y.isZero = true ∨
      f = .domain ∧ op = .modulo ∧ (∃ negative, x = .infinite negative) ∧ y.isNaN = false ∧
        y.isZero = false) ∧
    (((∃ v, (s.run e cost).outcome = .ok v) ∨
        ∃ err, (s.run e cost).outcome = .error (.error err) ∧ (s.run e cost).scope = s) ↔
      (s.run e cost).outcome = .error (.error .tooDeep) ∨
        ¬ ∃ m', e.MeetsInfiniteDividend ⟨s, #[]⟩ m') ∧
    ((s.run e cost).outcome = .error .domain →
      ∃ m', e.MeetsInfiniteDividend ⟨s, #[]⟩ m' ∧ (s.run e cost).scope = m'.scope) ∧
    ((s.runDelete name).outcome = .ok () ∨
      (s.runDelete name).outcome = .error (.error (.undefinedVariable name)) ∧
        (s.runDelete name).scope = s) ∧
    ((Program.run environment arguments input).ending = .aborted ↔
      ∃ settings, Settings.ofEnvironment environment = .ok settings ∧
        ∃ turn ∈ Program.turns settings.threshold (Arguments.ofList arguments) input,
          ∃ e, (parse turn.2 settings.threshold.readingRoom).line? = some (.expression e) ∧
            (turn.1.run e settings.threshold.accountCost).outcome = .error .domain) := by
  refine ⟨BinaryOp.apply_eq_error_iff op x y f, ?_, fun h => ?_, s.runDelete_cases name, ?_⟩
  · rw [Scope.run_ends_well_iff, Ne, Scope.run_eq_domain_iff, Classical.not_and_iff_not_or_not,
      Classical.not_not]
  · obtain ⟨-, m', hmeets, hscope⟩ := (s.run_leaves_iff _ e cost).1 ⟨h, rfl⟩
    exact ⟨m', hmeets, hscope.symm⟩
  · rw [Program.run_eq_aborted_iff]
    simp only [Program.IsAborted, Turn.result_eq_aborted_iff]

end LineCalculator
