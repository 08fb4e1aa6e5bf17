import LineCalculator.Proofs.Evaluation.Frame

/-!
# Remainders that do not exist

Every failure of an evaluation is an error of the calculator but one: a
remainder of an infinite dividend, by a divisor that is a number other than
zero.  No other operator, function or operand fails in that way.  This module
says when an evaluation does, by saying which operation it had come to.

## Coming to an operation

`e.Applies m op x y m'` says that the evaluation of `e` from the memory `m` comes
to the operator `op` with the operands `x` and `y` in hand and the memory `m'` by
then.  It has one rule for the outermost operator and one for every place where
a part is evaluated, and a part is only come to when the parts before it have
values.  An evaluation from a given memory is one computation, so it comes to at
most one operation that has no result: the one it fails at.

## What is left behind

A run that fails so does not put the layers back.  Its scope is that of the
memory `m'`, with everything bound that had been bound on the way to the
operation (`run_leaves_iff`).
-/

namespace LineCalculator

/-! ## Operators -/

/-- A remainder of an infinite dividend, unless the divisor is a zero or not a
number, is the only operation without a result that is no division by zero. -/
theorem BinaryOp.apply_eq_domain_iff (op : BinaryOp) (x y : Binary64) :
    op.apply x y = .error .domain ↔
      op = .modulo ∧ (∃ negative, x = .infinite negative) ∧ y.isNaN = false ∧
        y.isZero = false := by
  cases op with
  | modulo =>
    cases hzero : y.isZero with
    | true => simp [BinaryOp.apply, hzero]
    | false =>
      cases x with
      | nan => simp [BinaryOp.apply, hzero, Binary64.remainder?]
      | infinite negative =>
        cases y with
        | nan => simp [BinaryOp.apply, Binary64.isZero, Binary64.remainder?, Binary64.isNaN]
        | infinite negative' =>
          simp [BinaryOp.apply, Binary64.isZero, Binary64.remainder?, Binary64.isNaN]
        | finite negative' code =>
          simp [BinaryOp.apply, hzero, Binary64.remainder?, Binary64.isNaN]
      | finite negative code =>
        cases y with
        | nan => simp [BinaryOp.apply, Binary64.isZero, Binary64.remainder?]
        | infinite negative' => simp [BinaryOp.apply, Binary64.isZero, Binary64.remainder?]
        | finite negative' code' =>
          have hcode : code'.val ≠ 0 := by simpa [Binary64.isZero] using hzero
          simp [BinaryOp.apply, hzero, Binary64.remainder?, hcode]
  | divide =>
    cases hzero : y.isZero with
    | true => simp [BinaryOp.apply, hzero]
    | false => simp [BinaryOp.apply, hzero]
  | _ => simp [BinaryOp.apply]

theorem BinaryOp.apply_eq_divideByZero_iff (op : BinaryOp) (x y : Binary64) :
    op.apply x y = .error (.error .divideByZero) ↔
      (op = .divide ∨ op = .modulo) ∧ y.isZero = true := by
  cases op with
  | modulo =>
    cases hzero : y.isZero with
    | true => simp [BinaryOp.apply, hzero]
    | false =>
      cases hrem : x.remainder? y with
      | none => simp [BinaryOp.apply, hzero, hrem]
      | some r => simp [BinaryOp.apply, hzero, hrem]
  | divide =>
    cases hzero : y.isZero with
    | true => simp [BinaryOp.apply, hzero]
    | false => simp [BinaryOp.apply, hzero]
  | _ => simp [BinaryOp.apply]

theorem BinaryOp.apply_eq_error_iff (op : BinaryOp) (x y : Binary64) (f : Failure) :
    op.apply x y = .error f ↔
      f = .error .divideByZero ∧ (op = .divide ∨ op = .modulo) ∧ y.isZero = true ∨
      f = .domain ∧ op = .modulo ∧ (∃ negative, x = .infinite negative) ∧ y.isNaN = false ∧
        y.isZero = false := by
  rw [← BinaryOp.apply_eq_divideByZero_iff, ← BinaryOp.apply_eq_domain_iff]
  constructor
  · intro h
    rcases BinaryOp.apply_eq_error h with rfl | rfl
    · exact Or.inl ⟨rfl, h⟩
    · exact Or.inr ⟨rfl, h⟩
  · rintro (⟨rfl, h⟩ | ⟨rfl, h⟩)
    · exact h
    · exact h

/-! ## Failures of a sequence -/

namespace Evaluation

variable {α β : Type}

/-- A sequence fails in its first part, or in the second after the first has
come to a value. -/
theorem bind_eq_error_iff {x : Evaluation α} {f : α → Evaluation β} {m m' : Memory}
    {e : Failure} :
    (x >>= f) m = .error e m' ↔
      x m = .error e m' ∨ ∃ a next, x m = .ok a next ∧ f a next = .error e m' := by
  cases h : x m with
  | ok a next =>
    rw [bind_ok h]
    constructor
    · exact fun hf => Or.inr ⟨a, next, rfl, hf⟩
    · rintro (hx | ⟨a', next', ha, hf⟩)
      · exact absurd hx (by simp)
      · obtain ⟨rfl, rfl⟩ := EStateM.Result.ok.inj ha
        exact hf
  | error e' next => simp [bind_error h]

theorem ofExcept_eq_error_iff {result : Except Failure α} {m m' : Memory} {e : Failure} :
    ofExcept result m = .error e m' ↔ result = .error e ∧ m = m' := by
  cases result with
  | ok a => simp [ofExcept]
  | error f => simp [ofExcept]

/-- Going on with a function of the value adds no failure. -/
theorem bind_pure_eq_error_iff {x : Evaluation α} {f : α → β} {m m' : Memory} {e : Failure} :
    (x >>= fun a => pure (f a)) m = .error e m' ↔ x m = .error e m' := by
  rw [bind_eq_error_iff, or_iff_left_iff_imp]
  rintro ⟨a, next, -, h⟩
  exact absurd (show EStateM.Result.ok (f a) next = .error e m' from h) (by simp)

end Evaluation

/-! ## Evaluations -/

namespace Expr

open Evaluation

/-- The evaluation of an expression from a memory comes to an operator with its
operands in hand and another memory. -/
inductive Applies : Expr → Memory → BinaryOp → Binary64 → Binary64 → Memory → Prop
  /-- Both operands have values. -/
  | here {op : BinaryOp} {left right : Expr} {x y : Binary64} {m m₁ m₂ : Memory} :
      left.meaning m = .ok x m₁ → right.meaning m₁ = .ok y m₂ →
      Applies (.binary op left right) m op x y m₂
  | left {outer op : BinaryOp} {left right : Expr} {x y : Binary64} {m m' : Memory} :
      Applies left m op x y m' → Applies (.binary outer left right) m op x y m'
  /-- The left operand has a value. -/
  | right {outer op : BinaryOp} {left right : Expr} {x y value : Binary64} {m m₁ m' : Memory} :
      left.meaning m = .ok value m₁ → Applies right m₁ op x y m' →
      Applies (.binary outer left right) m op x y m'
  | operand {outer : UnaryOp} {op : BinaryOp} {e : Expr} {x y : Binary64} {m m' : Memory} :
      Applies e m op x y m' → Applies (.unary outer e) m op x y m'
  | value {name : String} {op : BinaryOp} {e : Expr} {x y : Binary64} {m m' : Memory} :
      Applies e m op x y m' → Applies (.assign name e) m op x y m'
  /-- The call can be made. -/
  | argument {name : String} {f : Builtin} {op : BinaryOp} {e : Expr} {x y : Binary64}
      {m m' : Memory} : Builtin.ofName? name = some f → Applies e m op x y m' →
      Applies (.call name [e]) m op x y m'

/-- The evaluation comes to a remainder that does not exist. -/
def MeetsInfiniteDividend (e : Expr) (m m' : Memory) : Prop :=
  ∃ negative y, e.Applies m .modulo (.infinite negative) y m' ∧ y.isNaN = false ∧
    y.isZero = false

/-- An evaluation that comes to a remainder that does not exist fails there. -/
theorem Applies.meaning_eq_domain {e : Expr} {m m' : Memory} {op : BinaryOp} {x y : Binary64}
    (h : e.Applies m op x y m') (hop : op.apply x y = .error .domain) :
    e.meaning m = .error .domain m' := by
  induction h with
  | here hleft hright =>
    rw [meaning, bind_ok hleft, bind_ok hright]
    exact ofExcept_eq_error_iff.2 ⟨hop, rfl⟩
  | left _ ih =>
    rw [meaning]
    exact bind_error (ih hop)
  | right hleft _ ih =>
    rw [meaning, bind_ok hleft]
    exact bind_error (ih hop)
  | operand _ ih =>
    rw [meaning]
    exact bind_error (ih hop)
  | value _ ih =>
    rw [meaning]
    exact bind_error (ih hop)
  | argument hf _ ih =>
    rw [meaning_call_single hf]
    exact bind_error (ih hop)

/-- An evaluation that fails without an error of the calculator has come to an
operation without a result. -/
theorem exists_applies_of_meaning_eq_domain {e : Expr} {m m' : Memory}
    (h : e.meaning m = .error .domain m') :
    ∃ op x y, e.Applies m op x y m' ∧ op.apply x y = .error .domain := by
  induction e generalizing m m' with
  | literal value =>
    exact (failsOnlyWith_pure (fun _ => False) value m _ m' h).elim
  | var name =>
    simp only [meaning, lookup] at h
    split at h
    · exact absurd h (by simp)
    · exact absurd h (by simp)
  | unary outer operand ih =>
    rw [meaning, bind_pure_eq_error_iff] at h
    obtain ⟨op, x, y, happ, hop⟩ := ih h
    exact ⟨op, x, y, happ.operand, hop⟩
  | binary outer left right ihl ihr =>
    rw [meaning, bind_eq_error_iff] at h
    rcases h with hleft | ⟨x, m₁, hleft, h⟩
    · obtain ⟨op, x, y, happ, hop⟩ := ihl hleft
      exact ⟨op, x, y, happ.left, hop⟩
    · rw [bind_eq_error_iff] at h
      rcases h with hright | ⟨y, m₂, hright, h⟩
      · obtain ⟨op, x', y, happ, hop⟩ := ihr hright
        exact ⟨op, x', y, .right hleft happ, hop⟩
      · obtain ⟨hop, rfl⟩ := ofExcept_eq_error_iff.1 h
        exact ⟨outer, x, y, .here hleft hright, hop⟩
  | assign name e ih =>
    rw [meaning, bind_eq_error_iff] at h
    rcases h with hvalue | ⟨value, next, -, h⟩
    · obtain ⟨op, x, y, happ, hop⟩ := ih hvalue
      exact ⟨op, x, y, happ.value, hop⟩
    · have hnever : FailsOnlyWith (fun _ => False) (do
          Evaluation.assign name value
          pure value) :=
        (failsOnlyWith_assign _ name value).bind fun _ => failsOnlyWith_pure _ value
      exact (hnever next _ m' h).elim
  | call name arguments ih =>
    rcases call_cases name arguments with ⟨f, e, hf, rfl⟩ | hother
    · rw [meaning_call_single hf, bind_pure_eq_error_iff] at h
      obtain ⟨op, x, y, happ, hop⟩ := ih e List.mem_cons_self h
      exact ⟨op, x, y, .argument hf happ, hop⟩
    · cases hf : Builtin.ofName? name with
      | none =>
        rw [meaning_call_undefined hf] at h
        exact absurd (EStateM.Result.error.inj h).1 (by simp)
      | some f =>
        rw [meaning_call_other hf (hother.resolve_left (by simp [hf]))] at h
        exact absurd (EStateM.Result.error.inj h).1 (by simp)

theorem meaning_eq_domain_iff (e : Expr) (m m' : Memory) :
    e.meaning m = .error .domain m' ↔ e.MeetsInfiniteDividend m m' := by
  constructor
  · intro h
    obtain ⟨op, x, y, happ, hop⟩ := exists_applies_of_meaning_eq_domain h
    obtain ⟨rfl, ⟨negative, rfl⟩, hnan, hzero⟩ := (BinaryOp.apply_eq_domain_iff op x y).1 hop
    exact ⟨negative, y, happ, hnan, hzero⟩
  · rintro ⟨negative, y, happ, hnan, hzero⟩
    exact happ.meaning_eq_domain
      ((BinaryOp.apply_eq_domain_iff _ _ _).2 ⟨rfl, ⟨negative, rfl⟩, hnan, hzero⟩)

end Expr

/-! ## Runs -/

namespace Scope

/-- A run fails without an error of the calculator in some scope exactly
when there is room for its expression to come to a remainder that does not exist
in that scope. -/
theorem run_leaves_iff (s after : Scope) (e : Expr) (cost : Nat) :
    ((s.run e cost).outcome = .error .domain ∧ (s.run e cost).scope = after) ↔
      (s.run e cost).outcome ≠ .error (.error .tooDeep) ∧
        ∃ m', e.MeetsInfiniteDividend ⟨s, #[]⟩ m' ∧ m'.scope = after := by
  unfold run
  rcases e.evaluate_agrees cost Run.room ⟨s, #[]⟩ with ⟨m, hdeep⟩ | hmeaning
  · rw [hdeep]
    simp [Run.ofResult]
  · rw [hmeaning]
    cases hm : e.meaning ⟨s, #[]⟩ with
    | ok value m =>
      have hnot : ∀ m', ¬ e.MeetsInfiniteDividend ⟨s, #[]⟩ m' := fun m' hmeets => by
        have h := (e.meaning_eq_domain_iff _ m').2 hmeets
        exact absurd (hm.symm.trans h) (by simp)
      simp [Run.ofResult, hnot]
    | error f m =>
      have hfounded : f.Founded := e.meaning_founded _ f m hm
      have hiff : ∀ m', e.MeetsInfiniteDividend ⟨s, #[]⟩ m' ↔ f = .domain ∧ m = m' := fun m' => by
        rw [← e.meaning_eq_domain_iff, hm]
        simp
      cases f with
      | domain => simp [Run.ofResult, hiff]
      | error err => simp [Run.ofResult, hiff]

theorem run_eq_domain_iff (s : Scope) (e : Expr) (cost : Nat) :
    (s.run e cost).outcome = .error .domain ↔
      (s.run e cost).outcome ≠ .error (.error .tooDeep) ∧
        ∃ m', e.MeetsInfiniteDividend ⟨s, #[]⟩ m' := by
  constructor
  · intro h
    obtain ⟨hdeep, m', hmeets, -⟩ := (s.run_leaves_iff _ e cost).1 ⟨h, rfl⟩
    exact ⟨hdeep, m', hmeets⟩
  · rintro ⟨hdeep, m', hmeets⟩
    exact ((s.run_leaves_iff m'.scope e cost).2 ⟨hdeep, m', hmeets, rfl⟩).1

/-- A run ends with a value, with an error and the scope as it was, or with a
failure that is no error of the calculator. -/
theorem run_ends_well_iff (s : Scope) (e : Expr) (cost : Nat) :
    ((∃ v, (s.run e cost).outcome = .ok v) ∨
        ∃ err, (s.run e cost).outcome = .error (.error err) ∧ (s.run e cost).scope = s) ↔
      (s.run e cost).outcome ≠ .error .domain := by
  cases hout : (s.run e cost).outcome with
  | ok v => simp
  | error f =>
    cases f with
    | domain => simp
    | error err => simpa using scope_run_of_error hout

/-- What an expression has bound before it comes to such a remainder stays. -/
example : ((Scope.ofBuiltins constants).run (.binary .add
    (.assign "a" (.literal Binary64.one))
    (.binary .modulo (.literal (.infinite false)) (.literal Binary64.one)))).scope.lookup? "a" =
      some Binary64.one := by
  decide

end Scope

end LineCalculator
