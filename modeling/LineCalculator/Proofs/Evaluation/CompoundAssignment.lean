import LineCalculator.Proofs.Evaluation.Course
import LineCalculator.Proofs.Reading.Updates

/-!
# Compound assignment is its expansion

A compound assignment is read as the assignment of an operation whose left operand is the
variable itself, and so are the lines that add or take away one (`LineSays`).  What such an
expression does when it is run follows from the order in which operands are evaluated.

The variable comes first.  If it has no value the run fails before anything else is looked at, so
that nothing of what the value would have bound is even in the account.  If it has one, that is
the left operand, whatever the value binds on its way; the value is evaluated in the same memory
as it is when it is run alone, and the result is bound behind everything that the value bound.

## Room

Evaluating the value within the assignment has less room than evaluating it alone has, so a value
that can be run may be nested too deeply in the assignment.  As the evaluator computes the meaning
unless it runs out of room (`Expr.evaluate_agrees`), this is the one way in which the two can
differ.
-/

namespace LineCalculator

open Evaluation

/-- What an update does, one thing after the other. -/
theorem Expr.evaluate_update (room : Nat) (x : String) (op : BinaryOp) (e : Expr) :
    evaluate 0 (room + 4) (.assign x (.binary op (.var x) e)) = (do
      let u ← Evaluation.lookup x
      let r ← evaluate 0 (room + 1) e
      let v ← Evaluation.ofExcept (op.apply u r)
      Evaluation.assign x v
      pure v) := by
  rw [evaluate_assign (Nat.zero_le (room + 3)), evaluate_binary]
  simp only [bind_assoc]
  rfl

/-- In the room of a run there is room for an update. -/
theorem Run.room_eq : Run.room = 984 + 4 := rfl

namespace Scope

/-- An answer that is bound is covered by a later one. -/
theorem assign_answer_assign (s : Scope) (answer x : String) (r v : Binary64) :
    ((s.assign answer r).assign x v).assign answer v = (s.assign x v).assign answer v := by
  refine eq_of_find? rfl rfl fun name => ?_
  show (((s.layers.inner.insert answer r).insert x v).insert answer v).find? name =
    ((s.layers.inner.insert x v).insert answer v).find? name
  simp only [Layer.find?_insert]
  by_cases hanswer : name = answer
  · rw [if_pos hanswer, if_pos hanswer]
  · simp only [if_neg hanswer]

section Run

variable {s : Scope} {x : String} {op : BinaryOp} {e : Expr} {u r v : Binary64}

/-- A run that comes to a value is an evaluation that comes to it. -/
theorem exists_evaluate_of_run (h : (s.run e).outcome = .ok r) :
    ∃ m, e.evaluate 0 Run.room ⟨s, #[]⟩ = .ok r m ∧
      s.run e = ⟨.ok r, m.scope.assign Run.answerName r, m.effects⟩ := by
  unfold run at h ⊢
  cases hm : e.evaluate 0 Run.room ⟨s, #[]⟩ with
  | ok value m =>
    rw [hm] at h
    obtain rfl : value = r := Except.ok.inj h
    exact ⟨m, rfl, rfl⟩
  | error f m =>
    rw [hm] at h
    cases f with
    | error err => cases h
    | domain => cases h

/-- **An update of a variable without a value** fails before the value is evaluated. -/
theorem run_update_of_undefined (op : BinaryOp) (e : Expr) (h : s.lookup? x = none) :
    s.run (.assign x (.binary op (.var x) e)) =
      ⟨.error (.error (.undefinedVariable x)), s, #[]⟩ := by
  have hlookup : Evaluation.lookup x ⟨s, #[]⟩ =
      .error (.error (.undefinedVariable x)) ⟨s, #[]⟩ := by
    unfold Evaluation.lookup
    rw [h]
  unfold run
  rw [Run.room_eq, Expr.evaluate_update, bind_error hlookup]
  rfl

/-- **An update of a variable with a value** binds what comes of the operator, behind everything
that the value bound. -/
theorem run_update_of_ok (hu : s.lookup? x = some u) (hr : (s.run e).outcome = .ok r)
    (hv : op.apply u r = .ok v)
    (hroom : (s.run (.assign x (.binary op (.var x) e))).outcome ≠ .error (.error .tooDeep)) :
    s.run (.assign x (.binary op (.var x) e)) =
      ⟨.ok v, ((s.run e).scope.assign x v).assign Run.answerName v,
        (s.run e).effects.push (.assigned x v)⟩ := by
  have hlookup : Evaluation.lookup x ⟨s, #[]⟩ = .ok u ⟨s, #[]⟩ := by
    unfold Evaluation.lookup
    rw [hu]
  obtain ⟨m, halone, hrun⟩ := exists_evaluate_of_run hr
  unfold run at hroom
  rw [Run.room_eq, Expr.evaluate_update, bind_ok hlookup] at hroom
  have hmeaning : e.meaning ⟨s, #[]⟩ = .ok r m := by
    rcases e.evaluate_agrees 0 Run.room ⟨s, #[]⟩ with ⟨m', hdeep⟩ | hagrees
    · rw [halone] at hdeep
      cases hdeep
    · exact hagrees.symm.trans halone
  have hwithin : e.evaluate 0 (984 + 1) ⟨s, #[]⟩ = .ok r m := by
    rcases e.evaluate_agrees 0 (984 + 1) ⟨s, #[]⟩ with ⟨m', hdeep⟩ | hagrees
    · rw [bind_error hdeep] at hroom
      exact absurd rfl hroom
    · exact hagrees.trans hmeaning
  have hofExcept : Evaluation.ofExcept (op.apply u r) m = .ok v m := by
    unfold Evaluation.ofExcept
    rw [hv]
  rw [hrun]
  unfold run
  rw [Run.room_eq, Expr.evaluate_update, bind_ok hlookup, bind_ok hwithin,
    bind_ok hofExcept]
  exact congrArg (fun after => Run.mk (.ok v) after (m.effects.push (.assigned x v)))
    (assign_answer_assign m.scope Run.answerName x r v).symm

/-- A run binds nothing but in the innermost layer. -/
theorem frame_run (s : Scope) (e : Expr) :
    (s.run e).scope.builtins = s.builtins ∧ (s.run e).scope.layers.outer = s.layers.outer := by
  obtain ⟨c, -, hcourse⟩ := s.exists_course e
  rw [hcourse s (AgreesOn.refl _ s)]
  exact ⟨builtins_assignAll _ _, outer_assignAll _ _⟩

end Run

end Scope

/-- The run of an update of `x` comes to `v`, where running the value alone is `alone`, and binds
it behind everything that running the value leaves. -/
structure Run.Updates (s : Scope) (x : String) (v : Binary64) (alone whole : Run Binary64) :
    Prop where
  outcome : whole.outcome = .ok v
  scope : whole.scope = (alone.scope.assign x v).assign Run.answerName v
  effects : whole.effects = alone.effects.push (.assigned x v)
  inner : whole.scope.layers.inner.find? x = some v
  outer : whole.scope.layers.outer = s.layers.outer
  builtins : whole.scope.builtins = s.builtins

/-- **Compound assignment is its expansion.**  A variable followed by a compound operator and the
text of an expression says the same as the assignment written out with the expression in brackets,
and a variable with an operator that adds or takes away one says the same as the assignment of
the sum or the difference.  Running what they say fails if the variable has no value, whatever the
expression is; otherwise it comes to the operation on the value that the variable had and the
value of the expression, and leaves what running the expression leaves with the variable bound to
it in the innermost layer. -/
theorem compound_assignment_is_expansion {x value : String} {e : Expr}
    (hx : Head.IsName x.toList) (hclear : '\n' ∉ value.toList)
    (hvalue : (parse value).Accepts (.expression e)) :
    (∀ op : BinaryOp,
      LineSays (.ofList (joined [x.toList, op.symbol ++ ['='], value.toList]))
        (.assign x (.binary op (.var x) e)) ∧
      LineSays
        (.ofList (joined [x.toList, ['='], x.toList, op.symbol, ['('], value.toList, [')']]))
        (.assign x (.binary op (.var x) e))) ∧
    (∀ op ∈ [BinaryOp.add, .subtract],
      LineSays (.ofList (joined [x.toList, op.symbol ++ op.symbol]))
        (.assign x (.binary op (.var x) (.literal Binary64.one))) ∧
      LineSays (.ofList (joined [x.toList, ['='], x.toList, op.symbol, ['1']]))
        (.assign x (.binary op (.var x) (.literal Binary64.one)))) ∧
    ∀ (op : BinaryOp) (operand : Expr) (s : Scope),
      (s.lookup? x = none → s.run (.assign x (.binary op (.var x) operand)) =
        ⟨.error (.error (.undefinedVariable x)), s, #[]⟩) ∧
      ∀ u r v : Binary64, s.lookup? x = some u → (s.run operand).outcome = .ok r →
        op.apply u r = .ok v →
        (s.run (.assign x (.binary op (.var x) operand))).outcome ≠ .error (.error .tooDeep) →
        Run.Updates s x v (s.run operand) (s.run (.assign x (.binary op (.var x) operand))) := by
  refine ⟨fun op => ⟨lineSays_update hx op hvalue hclear,
      lineSays_update_expanded hx op hvalue hclear⟩,
    fun op hop => ⟨lineSays_step hx hop, lineSays_step_expanded hx op⟩,
    fun op operand s => ⟨Scope.run_update_of_undefined op operand, ?_⟩⟩
  intro u r v hu hr hv hroom
  have hrun := Scope.run_update_of_ok hu hr hv hroom
  obtain ⟨hbuiltins, houter⟩ := s.frame_run (.assign x (.binary op (.var x) operand))
  refine ⟨by rw [hrun], by rw [hrun], by rw [hrun], ?_, houter, hbuiltins⟩
  rw [hrun]
  show (((s.run operand).scope.layers.inner.insert x v).insert Run.answerName v).find? x = some v
  rw [Layer.find?_insert, Layer.find?_insert, if_pos rfl, ite_self]

/-- A value that assigns the variable itself: five with three added is eight, although the
variable is three by then. -/
theorem compound_assignment_of_reassigned :
    (parse "x = 3").Accepts (.expression (.assign "x" (.literal (Binary64.ofInt 3)))) ∧
    (parse "x += x = 3").Accepts (.expression
      (.assign "x" (.binary .add (.var "x") (.assign "x" (.literal (Binary64.ofInt 3)))))) ∧
    Run.Updates ((Scope.ofBuiltins constants).assign "x" (Binary64.ofInt 5)) "x" (Binary64.ofInt 8)
      (((Scope.ofBuiltins constants).assign "x" (Binary64.ofInt 5)).run
        (.assign "x" (.literal (Binary64.ofInt 3))))
      (((Scope.ofBuiltins constants).assign "x" (Binary64.ofInt 5)).run
        (.assign "x" (.binary .add (.var "x") (.assign "x" (.literal (Binary64.ofInt 3)))))) := by
  have hvalue : (parse "x = 3").Accepts
      (.expression (.assign "x" (.literal (Binary64.ofInt 3)))) := by
    have htokens : tokenize "x = 3" = [⟨.identifier, "x", .bare, ⟨1, 1⟩, 1⟩,
        ⟨.equals, "=", .bare, ⟨1, 3⟩, 1⟩, ⟨.number, "3", .bare, ⟨1, 5⟩, 1⟩] := by decide +kernel
    have hthree : Grammar.Primary [⟨.number, "3", .bare, ⟨1, 5⟩, 1⟩]
        (.literal (Binary64.ofInt 3)) := .number rfl (by decide +kernel)
    have htarget : Grammar.Operation 0 [⟨.identifier, "x", .bare, ⟨1, 1⟩, 1⟩] (.var "x") :=
      .of_primary (.name rfl) 0
    have hline : Grammar.WholeLine (tokenize "x = 3")
        (.expression (.assign "x" (.literal (Binary64.ofInt 3)))) := by
      rw [htokens]
      exact .expression (.assign htarget rfl (.operation (.of_primary hthree 0))) (by simp)
    rcases hline.accepts (by decide +kernel) with haccepts | hdeep
    · exact haccepts _ (by decide +kernel)
    · exact absurd (hdeep "x = 3" (by decide +kernel)) (by decide +kernel)
  obtain ⟨hlines, -, hruns⟩ := @compound_assignment_is_expansion "x" "x = 3" _
    ⟨'x', [], by decide, by decide, by simp⟩ (by decide) hvalue
  have hline : String.ofList (joined ["x".toList, BinaryOp.add.symbol ++ ['='], "x = 3".toList]) =
      "x += x = 3" := by decide
  have hsays := (hlines .add).1
  rw [hline] at hsays
  refine ⟨hvalue, hsays.accepted _ hsays.faultless rfl (by decide +kernel), ?_⟩
  exact (hruns .add _ _).2 (Binary64.ofInt 5) (Binary64.ofInt 3) (Binary64.ofInt 8)
    (by decide +kernel) (by decide +kernel) (by decide +kernel) (by decide +kernel)

end LineCalculator
