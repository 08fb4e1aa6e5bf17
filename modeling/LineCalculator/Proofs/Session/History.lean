import LineCalculator.Evaluation.Session
import LineCalculator.Proofs.Evaluation.Frame

/-!
# Requests that leave no trace

A session goes from one request to the next with nothing but its scope.  Some
requests come to nothing: the line could not be read, or was the request to end
the session, or an error of the calculator was made, or the only layer was to be
closed.  Such a request leaves the scope as it found it, whatever its expression
had bound by the time it failed, and so a history in which it had never been
made would have gone on in the same way.

That is what the main statement says of every history: leave out all requests
that came to nothing, and every other request is answered as before, in the
same scope, and the session ends in the same scope.

## Where the work is

One request leaves no trace because a run that fails puts the layers back and
had not touched the constants (`Scope.scope_run_of_error`); nothing else that can
fail has an effect before it fails.  From one request to a history it is an
induction along the requests: a request that is left out hands on the scope that
it was given, and one that is kept hands on the scope that it leaves in either
history.
-/

namespace LineCalculator

namespace Session

/-- Whether an answer says that the request came to nothing. -/
def Answer.isRefusal : Answer → Bool
  | .unreadable => true
  | .leave => true
  | .failed (.evaluation (.error _)) => true
  | .failed .outermostLayer => true
  | _ => false

/-- A request with the scope that it was made in and the response to it. -/
structure Step where
  before : Scope
  request : Request
  response : Response

namespace Step

/-- The step of a request. -/
def take (s : Scope) (r : Request) : Step := ⟨s, r, respond s r⟩

@[simp] theorem request_take (s : Scope) (r : Request) : (take s r).request = r := rfl

/-- Whether the request came to nothing. -/
def isRefused (step : Step) : Bool := step.response.answer.isRefusal

end Step

/-- The steps of a session that is in some scope, one for each request. -/
def history (s : Scope) : List Request → List Step
  | [] => []
  | r :: rest => Step.take s r :: history (respond s r).scope rest

/-- The scope after some requests. -/
def scopeAfter (s : Scope) : List Request → Scope
  | [] => s
  | r :: rest => scopeAfter (respond s r).scope rest

/-- The requests that do not come to nothing. -/
def effective (s : Scope) (requests : List Request) : List Request :=
  ((history s requests).filter fun step => !step.isRefused).map (·.request)

/-! ## One request -/

theorem answerOf_refusal {α : Type} {answer : α → Answer} {run : Run α}
    (hanswer : ∀ a, (answer a).isRefusal = false)
    (h : (answerOf answer run).answer.isRefusal = true) :
    (answerOf answer run).scope = run.scope ∧ ∃ err, run.outcome = .error (.error err) := by
  unfold answerOf at h ⊢
  cases hout : run.outcome with
  | ok a =>
    rw [hout] at h
    exact absurd h (by simp [hanswer])
  | error f =>
    rw [hout] at h
    cases f with
    | domain => exact absurd h (by simp [Answer.isRefusal])
    | error err => exact ⟨rfl, err, rfl⟩

theorem scope_runLine_of_refusal {s : Scope} {l : Line}
    (h : (runLine s l).answer.isRefusal = true) : (runLine s l).scope = s := by
  cases l with
  | exit => rfl
  | delete name =>
    obtain ⟨hscope, err, hout⟩ := answerOf_refusal (fun _ => rfl) h
    exact hscope.trans (Scope.scope_runDelete_of_error hout)
  | expression e =>
    obtain ⟨hscope, err, hout⟩ := answerOf_refusal (fun _ => rfl) h
    exact hscope.trans (Scope.scope_run_of_error hout)

theorem scope_runStatement_of_refusal {s : Scope} {l : Line}
    (h : (runStatement s l).answer.isRefusal = true) : (runStatement s l).scope = s := by
  cases l with
  | delete name =>
    obtain ⟨hscope, err, hout⟩ := answerOf_refusal (fun _ => rfl) h
    exact hscope.trans (Scope.scope_runDelete_of_error hout)
  | exit => rfl
  | expression e => rfl

/-- A request that comes to nothing leaves the scope as it was. -/
theorem scope_respond_of_refusal {s : Scope} {r : Request}
    (h : (respond s r).answer.isRefusal = true) : (respond s r).scope = s := by
  cases r with
  | line text =>
    simp only [respond] at h ⊢
    cases hline : (parse text).line? with
    | none => rfl
    | some l =>
      rw [hline] at h
      cases l with
      | exit => rfl
      | delete name => exact scope_runLine_of_refusal h
      | expression e => exact scope_runLine_of_refusal h
  | run l => exact scope_runLine_of_refusal h
  | runStatement l => exact scope_runStatement_of_refusal h
  | push => exact absurd h (by simp [respond, Answer.isRefusal])
  | pop =>
    simp only [respond] at h ⊢
    cases hpop : s.pop? with
    | none => rfl
    | some popped =>
      rw [hpop] at h
      exact absurd h (by simp [Answer.isRefusal])
  | lookup name =>
    simp only [respond]
    cases s.lookup? name with
    | none => rfl
    | some value => rfl
  | assign name value => exact absurd h (by simp [respond, Answer.isRefusal])
  | delete name =>
    simp only [respond] at h ⊢
    cases hd : s.delete? name with
    | none => rfl
    | some after =>
      rw [hd] at h
      exact absurd h (by simp [Answer.isRefusal])

/-! ## Histories -/

theorem scope_of_mem_history {s : Scope} {requests : List Request} {step : Step}
    (hmem : step ∈ history s requests) (h : step.isRefused = true) :
    step.response.scope = step.before := by
  induction requests generalizing s with
  | nil => exact absurd hmem (by simp [history])
  | cons r rest ih =>
    rcases List.mem_cons.1 hmem with rfl | hrest
    · exact scope_respond_of_refusal h
    · exact ih hrest

theorem effective_cons_of_refused {s : Scope} {r : Request} (rest : List Request)
    (h : (Step.take s r).isRefused = true) : effective s (r :: rest) = effective s rest := by
  have hs : (respond s r).scope = s := scope_respond_of_refusal h
  simp only [effective, history, hs, List.filter_cons, h, Bool.not_true, Bool.false_eq_true,
    if_false]

theorem effective_cons_of_not_refused {s : Scope} {r : Request} (rest : List Request)
    (h : (Step.take s r).isRefused = false) :
    effective s (r :: rest) = r :: effective (respond s r).scope rest := by
  simp only [effective, history, List.filter_cons, h, Bool.not_false, if_true, List.map_cons,
    Step.request_take]

theorem history_effective (s : Scope) (requests : List Request) :
    history s (effective s requests) = (history s requests).filter fun step => !step.isRefused := by
  induction requests generalizing s with
  | nil => rfl
  | cons r rest ih =>
    cases h : (Step.take s r).isRefused with
    | true =>
      have hs : (respond s r).scope = s := scope_respond_of_refusal h
      rw [effective_cons_of_refused rest h, ih]
      simp only [history, hs, List.filter_cons, h, Bool.not_true, Bool.false_eq_true, if_false]
    | false =>
      rw [effective_cons_of_not_refused rest h, history, ih]
      simp only [history, List.filter_cons, h, Bool.not_false, if_true]

theorem scopeAfter_effective (s : Scope) (requests : List Request) :
    scopeAfter s (effective s requests) = scopeAfter s requests := by
  induction requests generalizing s with
  | nil => rfl
  | cons r rest ih =>
    cases h : (Step.take s r).isRefused with
    | true =>
      have hs : (respond s r).scope = s := scope_respond_of_refusal h
      rw [effective_cons_of_refused rest h, ih, scopeAfter, hs]
    | false =>
      rw [effective_cons_of_not_refused rest h, scopeAfter, ih, scopeAfter]

/-- **Requests that come to nothing leave no trace.**  In every history each of
them leaves the scope as it was, with all layers and all bindings in them.
Without them the history consists of the same other steps, each request in the
same scope and with the same response, and it ends in the same scope. -/
theorem refusals_leave_no_trace (s : Scope) (requests : List Request) :
    (∀ step ∈ history s requests, step.isRefused = true → step.response.scope = step.before) ∧
      history s (effective s requests) =
        (history s requests).filter (fun step => !step.isRefused) ∧
      scopeAfter s (effective s requests) = scopeAfter s requests :=
  ⟨fun _ hmem h => scope_of_mem_history hmem h, history_effective s requests,
    scopeAfter_effective s requests⟩

end Session

end LineCalculator
