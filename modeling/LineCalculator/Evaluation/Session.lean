import LineCalculator.Evaluation.Run
import LineCalculator.Syntax.Outline
import LineCalculator.Syntax.Parse

/-!
# Sessions

A session is a scope that lives on from one request to the next.  Most requests
are lines to be read and run; the others work on the scope directly or hand over
a line that has been read elsewhere.  Each request is answered, and the answer
to a request that fails says why.
-/

namespace LineCalculator

namespace Session

/-- Something asked of a session. -/
inductive Request where
  /-- Read a line and run it. -/
  | line (text : String)
  /-- Run a line that has been read. -/
  | run (l : Line)
  /-- Run a line that is to have an effect and no value. -/
  | runStatement (l : Line)
  /-- Open a layer. -/
  | push
  /-- Close the innermost layer. -/
  | pop
  | lookup (name : String)
  | assign (name : String) (value : Binary64)
  | delete (name : String)

/-- Why a request fails. -/
inductive Fault where
  | evaluation (f : Failure)
  /-- The only layer was to be closed. -/
  | outermostLayer
  /-- A value was asked of something that has none. -/
  | notAnExpression (l : Line)
  /-- An effect was asked of something that has none. -/
  | notAStatement (l : Line)

/-- The answer to a request. -/
inductive Answer where
  /-- Done, and there is nothing to say. -/
  | done
  /-- The value of an expression. -/
  | value (v : Binary64)
  /-- The value bound to a name. -/
  | found (v : Binary64)
  /-- The layer that was closed. -/
  | popped (layer : Layer)
  /-- The line could not be read. -/
  | unreadable
  /-- The line was the request to end the session. -/
  | leave
  | failed (f : Fault)

/-- What comes of a request. -/
structure Response where
  /-- What was reported of the line, if one was read. -/
  diagnostics : List Diagnostic
  answer : Answer
  /-- The scope after the request. -/
  scope : Scope

/-- The message of a fault. -/
def Fault.message : Fault → String
  | evaluation f => f.message
  | outermostLayer => "The outermost user scope cannot be popped"
  | notAnExpression l => "Unexpected expression type: " ++ l.outline
  | notAStatement l => "Unexpected statement type: " ++ l.outline

/-- The scope that a session begins with. -/
def initial : Scope := Scope.ofBuiltins constants

/-- The answer that a run comes to. -/
def answerOf {α : Type} (answer : α → Answer) (run : Run α) : Response :=
  match run.outcome with
  | .ok value => ⟨[], answer value, run.scope⟩
  | .error f => ⟨[], .failed (.evaluation f), run.scope⟩

/-- The response to a request about a name that has no value. -/
def undefined (s : Scope) (name : String) : Response :=
  ⟨[], .failed (.evaluation (.error (.undefinedVariable name))), s⟩

/-- Runs a line that has been read. -/
def runLine (s : Scope) : Line → Response
  | .exit => ⟨[], .failed (.notAnExpression .exit), s⟩
  | .delete name => answerOf (fun _ => .done) (s.runDelete name)
  | .expression e => answerOf .value (s.run e)

/-- Runs a line that is to have an effect and no value. -/
def runStatement (s : Scope) : Line → Response
  | .delete name => answerOf (fun _ => .done) (s.runDelete name)
  | l => ⟨[], .failed (.notAStatement l), s⟩

/-- Answers a request. -/
def respond (s : Scope) : Request → Response
  | .line text =>
    let read := parse text
    match read.line? with
    | none => ⟨read.diagnostics, .unreadable, s⟩
    | some .exit => ⟨read.diagnostics, .leave, s⟩
    | some l => { runLine s l with diagnostics := read.diagnostics }
  | .run l => runLine s l
  | .runStatement l => runStatement s l
  | .push => ⟨[], .done, s.push⟩
  | .pop =>
    match s.pop? with
    | some (layer, after) => ⟨[], .popped layer, after⟩
    | none => ⟨[], .failed .outermostLayer, s⟩
  | .lookup name =>
    match s.lookup? name with
    | some value => ⟨[], .found value, s⟩
    | none => undefined s name
  | .assign name value => ⟨[], .done, s.assign name value⟩
  | .delete name =>
    match s.delete? name with
    | some after => ⟨[], .done, after⟩
    | none => undefined s name

end Session

end LineCalculator
