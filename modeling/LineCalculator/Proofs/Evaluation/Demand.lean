import Mathlib.Data.List.MinMax
import Mathlib.Logic.Function.Iterate
import LineCalculator.Proofs.Evaluation.Frame

/-!
# The room that an expression demands

Whether there is room to evaluate an expression can be told from the expression alone.  Its
demand (`Expr.demand`) counts, along the worst way into it, what the evaluator charges for going
on there: one unit for the value of an assignment, two for the operand that ends a run of
operators and for every right operand, three for an argument.  Going on with a run costs
nothing, so a run of operators demands as much as its dearest operand and two units, however
long it is.

With that much room an evaluation never fails for want of it (`Expr.evaluate_spares`), and with
less it never comes to a value (`Expr.evaluate_succeedsOnlyIf`).  Between the two there is
only the evaluation that fails for another reason before it comes to the place for which there
is no room.

## Ways into an expression

`Expr.Descends` follows a way from an expression down to a part of it and counts the steps into
right operands, values of assignments and arguments, which are the steps that cost something
wherever they are taken.  So the number of such steps on any way is no more than the demand
(`Expr.Descends.le_demand`).
-/

namespace LineCalculator

namespace Expr

/-! ## Demand -/

/-- What the operand of a unary operator demands of the room of the operator, if it demands that
much itself. -/
def signDemand (demand : Nat) : Expr → Nat
  | .unary _ _ => demand
  | _ => demand + 2

/-- What the left operand of a binary operator demands of the room of the operator, if it demands
that much itself. -/
def linkDemand (demand : Nat) : Expr → Nat
  | .binary _ _ _ => demand
  | _ => demand + 2

/-- The room that it takes to evaluate an expression. -/
def demand : Expr → Nat
  | .literal _ => 1
  | .var _ => 1
  | .unary _ operand => signDemand operand.demand operand
  | .binary _ left right => max (linkDemand left.demand left) (right.demand + 2)
  | .assign _ value => value.demand + 1
  | .call _ arguments => (arguments.map demand).foldr max 0 + 3

theorem le_signDemand (n : Nat) (e : Expr) : n ≤ signDemand n e := by
  cases e <;> simp [signDemand]

theorem le_linkDemand (n : Nat) (e : Expr) : n ≤ linkDemand n e := by
  cases e <;> simp [linkDemand]

theorem signDemand_le_add_two (n : Nat) (e : Expr) : signDemand n e ≤ n + 2 := by
  cases e <;> simp [signDemand]

theorem linkDemand_le_add_two (n : Nat) (e : Expr) : linkDemand n e ≤ n + 2 := by
  cases e <;> simp [linkDemand]

/-- What an operand demands of the room of a unary operator is what it demands of its own. -/
theorem signDemand_le_iff (n room : Nat) (e : Expr) :
    signDemand n e ≤ room + 2 ↔ n ≤ signRoom room e := by
  cases e <;> simp [signDemand, signRoom]

/-- What a left operand demands of the room of a binary operator is what it demands of its
own. -/
theorem linkDemand_le_iff (n room : Nat) (e : Expr) :
    linkDemand n e ≤ room + 2 ↔ n ≤ linkRoom room e := by
  cases e <;> simp [linkDemand, linkRoom]

/-- A unary operator takes two units, whether its operand goes on with the run or ends it. -/
theorem two_le_demand_unary (op : UnaryOp) (operand : Expr) : 2 ≤ (unary op operand).demand := by
  induction operand generalizing op with
  | unary inner operand ih =>
    rw [demand, signDemand]
    exact ih inner
  | _ =>
    rw [demand]
    exact Nat.le_add_left 2 _

/-- A call demands three units more than any of its arguments. -/
theorem demand_argument_le {e : Expr} {arguments : List Expr} (h : e ∈ arguments)
    (name : String) : e.demand + 3 ≤ (call name arguments).demand := by
  rw [demand]
  have hmax := List.le_max_of_le' 0 (List.mem_map_of_mem h) (Nat.le_refl e.demand)
  omega

theorem demand_call_single (name : String) (e : Expr) :
    (call name [e]).demand = e.demand + 3 := by
  simp [demand]

end Expr

/-! ## Room enough -/

namespace Evaluation

variable {α β : Type}

theorem failsOnlyWith_lookup {P : Failure → Prop} {name : String}
    (h : P (.error (.undefinedVariable name))) : FailsOnlyWith P (lookup name) := by
  intro m f m' hfail
  unfold lookup at hfail
  split at hfail
  · cases hfail
  · cases hfail
    exact h

end Evaluation

namespace Expr

open Evaluation

/-- **With room for its demand an evaluation does not run out of it.** -/
theorem evaluate_spares (e : Expr) {room : Nat} (h : e.demand ≤ room) :
    FailsOnlyWith (· ≠ .error .tooDeep) (e.evaluate 0 room) := by
  induction e generalizing room with
  | literal value =>
    cases room with
    | zero => exact absurd h (by simp [demand])
    | succ room => exact failsOnlyWith_pure _ value
  | var name =>
    cases room with
    | zero => exact absurd h (by simp [demand])
    | succ room => exact failsOnlyWith_lookup (by simp)
  | unary op operand ih =>
    obtain ⟨room, rfl⟩ :=
      Nat.exists_eq_add_of_le' (Nat.le_trans (two_le_demand_unary op operand) h)
    rw [demand, signDemand_le_iff] at h
    rw [evaluate_unary]
    exact (ih h).bind fun value => failsOnlyWith_pure _ _
  | binary op left right ihl ihr =>
    rw [demand, Nat.max_le] at h
    obtain ⟨hleft, hright⟩ := h
    obtain ⟨room, rfl⟩ := Nat.exists_eq_add_of_le' (Nat.le_of_add_left_le hright)
    rw [linkDemand_le_iff] at hleft
    rw [evaluate_binary]
    refine (ihl hleft).bind fun x => (ihr (Nat.le_of_add_le_add_right hright)).bind fun y =>
      failsOnlyWith_ofExcept fun f hf => ?_
    rcases BinaryOp.apply_eq_error hf with rfl | rfl <;> simp
  | assign name e ih =>
    rw [demand] at h
    obtain ⟨room, rfl⟩ := Nat.exists_eq_add_of_le' (Nat.le_of_add_left_le h)
    rw [evaluate_assign (Nat.zero_le room)]
    exact (ih (Nat.le_of_add_le_add_right h)).bind fun value =>
      (failsOnlyWith_assign _ name value).bind fun _ => failsOnlyWith_pure _ _
  | call name arguments ih =>
    have hthree : 3 ≤ room := Nat.le_trans (by rw [demand]; omega) h
    obtain ⟨room, rfl⟩ := Nat.exists_eq_add_of_le' hthree
    cases hf : Builtin.ofName? name with
    | none =>
      rw [evaluate_call_other room (Or.inl hf), meaning_call_undefined hf]
      exact failsOnlyWith_fail (by simp)
    | some f =>
      rcases call_cases name arguments with ⟨f', e, hf', rfl⟩ | hother
      · rw [demand_call_single] at h
        rw [evaluate_call_single hf']
        exact (ih e List.mem_cons_self (Nat.le_of_add_le_add_right h)).bind fun value =>
          failsOnlyWith_pure _ _
      · have hlen : arguments.length ≠ 1 := hother.resolve_left (by simp [hf])
        rw [evaluate_call_other room hother, meaning_call_other hf hlen]
        exact failsOnlyWith_fail (by simp)

end Expr

/-! ## Too little room -/

namespace Evaluation

variable {α β : Type} {p q : Prop}

/-- An evaluation comes to a value only if something holds. -/
def SucceedsOnlyIf (x : Evaluation α) (p : Prop) : Prop :=
  ∀ m a m', x m = .ok a m' → p

theorem succeedsOnlyIf_true (x : Evaluation α) : x.SucceedsOnlyIf True := fun _ _ _ _ => trivial

theorem succeedsOnlyIf_fail (e : CalcError) (p : Prop) :
    (fail e : Evaluation α).SucceedsOnlyIf p := fun _ _ _ h => nomatch h

theorem SucceedsOnlyIf.imp {x : Evaluation α} (h : x.SucceedsOnlyIf p) (himp : p → q) :
    x.SucceedsOnlyIf q := fun m a m' hok => himp (h m a m' hok)

theorem SucceedsOnlyIf.bind {x : Evaluation α} {f : α → Evaluation β} (hx : x.SucceedsOnlyIf p)
    (hf : ∀ a, (f a).SucceedsOnlyIf q) : (x >>= f).SucceedsOnlyIf (p ∧ q) := by
  intro m b m' h
  cases hm : x m with
  | ok a next =>
    rw [bind_ok hm] at h
    exact ⟨hx m a next hm, hf a next b m' h⟩
  | error e next =>
    rw [bind_error hm] at h
    cases h

theorem SucceedsOnlyIf.bind_left {x : Evaluation α} {f : α → Evaluation β}
    (hx : x.SucceedsOnlyIf p) : (x >>= f).SucceedsOnlyIf p :=
  (hx.bind fun a => succeedsOnlyIf_true (f a)).imp And.left

end Evaluation

namespace Expr

open Evaluation

/-- **An evaluation comes to a value only with room for the demand.** -/
theorem evaluate_succeedsOnlyIf (e : Expr) (room : Nat) :
    (e.evaluate 0 room).SucceedsOnlyIf (e.demand ≤ room) := by
  induction e generalizing room with
  | literal value =>
    cases room with
    | zero => exact succeedsOnlyIf_fail _ _
    | succ room => exact (succeedsOnlyIf_true _).imp fun _ => by simp [demand]
  | var name =>
    cases room with
    | zero => exact succeedsOnlyIf_fail _ _
    | succ room => exact (succeedsOnlyIf_true _).imp fun _ => by simp [demand]
  | unary op operand ih =>
    match room with
    | 0 => exact succeedsOnlyIf_fail _ _
    | 1 => exact succeedsOnlyIf_fail _ _
    | room + 2 =>
      rw [evaluate_unary, demand, signDemand_le_iff]
      exact (ih _).bind_left
  | binary op left right ihl ihr =>
    match room with
    | 0 => exact succeedsOnlyIf_fail _ _
    | 1 => exact succeedsOnlyIf_fail _ _
    | room + 2 =>
      rw [evaluate_binary, demand, Nat.max_le, linkDemand_le_iff, Nat.add_le_add_iff_right]
      exact (ihl _).bind fun x => (ihr room).bind_left
  | assign name e ih =>
    cases room with
    | zero => exact succeedsOnlyIf_fail _ _
    | succ room =>
      rw [demand, Nat.add_le_add_iff_right]
      exact (ih room).bind_left
  | call name arguments ih =>
    match room with
    | 0 => exact succeedsOnlyIf_fail _ _
    | 1 => exact succeedsOnlyIf_fail _ _
    | 2 => exact succeedsOnlyIf_fail _ _
    | room + 3 =>
      cases hf : Builtin.ofName? name with
      | none =>
        rw [evaluate_call_other room (Or.inl hf), meaning_call_undefined hf]
        exact succeedsOnlyIf_fail _ _
      | some f =>
        rcases call_cases name arguments with ⟨f', e, hf', rfl⟩ | hother
        · rw [evaluate_call_single hf', demand_call_single, Nat.add_le_add_iff_right]
          exact (ih e List.mem_cons_self room).bind_left
        · have hlen : arguments.length ≠ 1 := hother.resolve_left (by simp [hf])
          rw [evaluate_call_other room hother, meaning_call_other hf hlen]
          exact succeedsOnlyIf_fail _ _

/-! ## Ways into an expression -/

/-- There is a way from an expression to a part of it with so many steps into right operands,
values of assignments and arguments. -/
inductive Descends : Expr → Nat → Expr → Prop
  | here (e : Expr) : Descends e 0 e
  | operand {op : UnaryOp} {e part : Expr} {n : Nat} (h : Descends e n part) :
      Descends (.unary op e) n part
  | left {op : BinaryOp} {left right part : Expr} {n : Nat} (h : Descends left n part) :
      Descends (.binary op left right) n part
  | right {op : BinaryOp} {left right part : Expr} {n : Nat} (h : Descends right n part) :
      Descends (.binary op left right) (n + 1) part
  | value {name : String} {e part : Expr} {n : Nat} (h : Descends e n part) :
      Descends (.assign name e) (n + 1) part
  | argument {name : String} {arguments : List Expr} {e part : Expr} {n : Nat}
      (hmem : e ∈ arguments) (h : Descends e n part) : Descends (.call name arguments) (n + 1) part

theorem descends_iterate_assign (name : String) (n : Nat) (e : Expr) :
    Descends ((assign name)^[n] e) n e := by
  induction n with
  | zero => exact .here e
  | succ n ih =>
    rw [Function.iterate_succ_apply']
    exact .value ih

/-- No way has more such steps than the expression demands room. -/
theorem Descends.le_demand {e part : Expr} {n : Nat} (h : e.Descends n part) : n ≤ e.demand := by
  induction h with
  | here e => exact Nat.zero_le _
  | operand h ih =>
    rw [demand]
    exact Nat.le_trans ih (le_signDemand _ _)
  | left h ih =>
    rw [demand]
    exact Nat.le_trans ih (Nat.le_trans (le_linkDemand _ _) (Nat.le_max_left _ _))
  | right h ih =>
    rw [demand]
    omega
  | value h ih =>
    rw [demand]
    exact Nat.succ_le_succ ih
  | @argument name arguments e part n hmem h ih =>
    have hargument := demand_argument_le hmem name
    omega

end Expr

/-! ## Runs -/

namespace Scope

/-- A run of an expression that demands no more room than there is does not run out of it. -/
theorem run_ne_tooDeep (s : Scope) {e : Expr} (h : e.demand ≤ Run.room) :
    (s.run e).outcome ≠ .error (.error .tooDeep) := by
  have hspares := e.evaluate_spares h ⟨s, #[]⟩
  unfold run
  cases hm : e.evaluate 0 Run.room ⟨s, #[]⟩ with
  | ok value m => simp [Run.ofResult]
  | error f m =>
    have hne := hspares f m hm
    cases f with
    | domain => simp [Run.ofResult]
    | error err => simpa [Run.ofResult] using hne

/-- A run of an expression that demands more room than there is comes to no value. -/
theorem run_ne_ok (s : Scope) {e : Expr} (h : Run.room < e.demand) (value : Binary64) :
    (s.run e).outcome ≠ .ok value := by
  have hneeds := e.evaluate_succeedsOnlyIf Run.room ⟨s, #[]⟩
  unfold run
  cases hm : e.evaluate 0 Run.room ⟨s, #[]⟩ with
  | ok value m => exact absurd (hneeds value m hm) (Nat.not_le.2 h)
  | error f m => cases f <;> simp [Run.ofResult]

end Scope

end LineCalculator
