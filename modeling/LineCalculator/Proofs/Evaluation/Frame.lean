import LineCalculator.Evaluation.Run
import LineCalculator.Proofs.Evaluation.Meaning

/-!
# What an evaluation leaves alone

An expression can bind any number of names while it is evaluated, but only in
the innermost layer: the constants and the layers around the innermost one are
the same after an evaluation as before, however it ended (`evaluate_keepsFrame`).

A run that fails with an error of the calculator puts the layers back.  The
constants are no layer that it puts back, so that the whole scope is as it was
(`scope_run_of_error`) needs the evaluation not to have touched them, which is
the half of the frame that matters here.

## Properties that evaluations inherit

Evaluations are put together from five steps by sequencing.  A property of
evaluations that the steps have and that sequencing keeps is therefore one of
every evaluation (`Composable.evaluate`), with any room and from any memory.
-/

namespace LineCalculator

namespace Evaluation

/-- A property that the steps of evaluations have and that sequencing keeps. -/
structure Composable (P : {α : Type} → Evaluation α → Prop) : Prop where
  pure : ∀ {α : Type} (a : α), P (Pure.pure a : Evaluation α)
  fail : ∀ {α : Type} (e : CalcError), P (Evaluation.fail e : Evaluation α)
  lookup : ∀ name, P (Evaluation.lookup name)
  assign : ∀ cost room name value, P (Evaluation.assignWithin cost room name value)
  ofExcept : ∀ {α : Type} (result : Except Failure α), P (Evaluation.ofExcept result)
  bind : ∀ {α β : Type} {x : Evaluation α} {f : α → Evaluation β},
    P x → (∀ a, P (f a)) → P (x >>= f)

/-- What is kept by sequencing holds of every evaluation of an expression. -/
theorem Composable.evaluate {P : {α : Type} → Evaluation α → Prop} (h : Composable P)
    (cost : Nat) (e : Expr) (room : Nat) : P (e.evaluate cost room) := by
  induction e generalizing room with
  | literal value =>
    cases room with
    | zero => exact h.fail _
    | succ room => exact h.pure value
  | var name =>
    cases room with
    | zero => exact h.fail _
    | succ room => exact h.lookup name
  | unary op operand ih =>
    match room with
    | 0 => exact h.fail _
    | 1 => exact h.fail _
    | room + 2 =>
      rw [Expr.evaluate_unary]
      exact h.bind (ih _) fun value => h.pure _
  | binary op left right ihl ihr =>
    match room with
    | 0 => exact h.fail _
    | 1 => exact h.fail _
    | room + 2 =>
      rw [Expr.evaluate_binary]
      exact h.bind (ihl _) fun x => h.bind (ihr room) fun y => h.ofExcept _
  | assign name e ih =>
    cases room with
    | zero => exact h.fail _
    | succ room =>
      exact h.bind (ih room) fun value =>
        h.bind (h.assign cost room name value) fun _ => h.pure value
  | call name arguments ih =>
    match room with
    | 0 => exact h.fail _
    | 1 => exact h.fail _
    | 2 => exact h.fail _
    | room + 3 =>
      cases hf : Builtin.ofName? name with
      | none =>
        rw [Expr.evaluate_call_other room (Or.inl hf), Expr.meaning_call_undefined hf]
        exact h.fail _
      | some f =>
        rcases Expr.call_cases name arguments with ⟨f', e, hf', rfl⟩ | hother
        · rw [Expr.evaluate_call_single hf']
          exact h.bind (ih e List.mem_cons_self room) fun value => h.pure _
        · have hlen : arguments.length ≠ 1 := hother.resolve_left (by simp [hf])
          rw [Expr.evaluate_call_other room hother, Expr.meaning_call_other hf hlen]
          exact h.fail _

end Evaluation

/-! ## The frame -/

/-- Two memories have the same constants and the same layers around the
innermost one. -/
structure Memory.SameFrame (m m' : Memory) : Prop where
  builtins : m'.scope.builtins = m.scope.builtins
  outer : m'.scope.layers.outer = m.scope.layers.outer

namespace Memory.SameFrame

theorem refl (m : Memory) : m.SameFrame m := ⟨rfl, rfl⟩

theorem trans {m m' m'' : Memory} (h : m.SameFrame m') (h' : m'.SameFrame m'') :
    m.SameFrame m'' :=
  ⟨h'.builtins.trans h.builtins, h'.outer.trans h.outer⟩

end Memory.SameFrame

namespace Evaluation

variable {α β : Type}

/-- The memory that an evaluation leaves, whether it succeeds or not. -/
def after (x : Evaluation α) (m : Memory) : Memory :=
  match x m with
  | .ok _ m' => m'
  | .error _ m' => m'

theorem after_of_ok {x : Evaluation α} {m m' : Memory} {a : α} (h : x m = .ok a m') :
    x.after m = m' := by
  rw [after, h]

theorem after_of_error {x : Evaluation α} {m m' : Memory} {f : Failure}
    (h : x m = .error f m') : x.after m = m' := by
  rw [after, h]

/-- An evaluation leaves the frame of every memory as it is. -/
def KeepsFrame (x : Evaluation α) : Prop := ∀ m : Memory, m.SameFrame (x.after m)

theorem keepsFrame_lookup (name : String) : (lookup name).KeepsFrame := by
  intro m
  unfold after lookup
  cases m.scope.lookup? name with
  | some value => exact Memory.SameFrame.refl m
  | none => exact Memory.SameFrame.refl m

theorem keepsFrame_assignWithin (cost room : Nat) (name : String) (value : Binary64) :
    (assignWithin cost room name value).KeepsFrame := by
  intro m
  by_cases h : cost ≤ room
  · rw [assignWithin_of_le h]
    exact ⟨rfl, rfl⟩
  · rw [after_of_error (if_neg h : assignWithin cost room name value m = _)]
    exact ⟨rfl, rfl⟩

theorem keepsFrame_ofExcept (result : Except Failure α) : (ofExcept result).KeepsFrame := by
  intro m
  cases result with
  | ok a => exact Memory.SameFrame.refl m
  | error f => exact Memory.SameFrame.refl m

theorem KeepsFrame.bind {x : Evaluation α} {f : α → Evaluation β} (hx : x.KeepsFrame)
    (hf : ∀ a, (f a).KeepsFrame) : (x >>= f).KeepsFrame := by
  intro m
  have hm := hx m
  cases h : x m with
  | ok a m' =>
    have hafter : (x >>= f).after m = (f a).after m' := by rw [after, bind_ok h, after]
    rw [after_of_ok h] at hm
    rw [hafter]
    exact hm.trans (hf a m')
  | error e m' =>
    rw [after_of_error h] at hm
    rw [after_of_error (bind_error h)]
    exact hm

theorem composable_keepsFrame : Composable @KeepsFrame where
  pure := fun _ m => Memory.SameFrame.refl m
  fail := fun _ m => Memory.SameFrame.refl m
  lookup := keepsFrame_lookup
  assign := keepsFrame_assignWithin
  ofExcept := keepsFrame_ofExcept
  bind := KeepsFrame.bind

end Evaluation

/-- Evaluating an expression binds names in the innermost layer and nowhere
else. -/
theorem Expr.evaluate_keepsFrame (cost : Nat) (e : Expr) (room : Nat) :
    (e.evaluate cost room).KeepsFrame :=
  Evaluation.composable_keepsFrame.evaluate cost e room

/-! ## Runs that fail -/

namespace Scope

/-- A run that fails with an error of the calculator leaves the scope as it
was. -/
theorem scope_run_of_error {s : Scope} {e : Expr} {cost : Nat} {err : CalcError}
    (h : (s.run e cost).outcome = .error (.error err)) : (s.run e cost).scope = s := by
  have hframe := e.evaluate_keepsFrame cost Run.room ⟨s, #[]⟩
  unfold run at h ⊢
  cases hm : e.evaluate cost Run.room ⟨s, #[]⟩ with
  | ok value m =>
    rw [hm] at h
    exact absurd h (by simp [Run.ofResult])
  | error f m =>
    rw [Evaluation.after_of_error hm] at hframe
    rw [hm] at h
    cases f with
    | domain => exact absurd h (by simp [Run.ofResult])
    | error err' =>
      show Scope.mk m.scope.builtins s.layers = s
      rw [hframe.builtins]

/-- A variable that cannot be forgotten leaves the scope as it was. -/
theorem scope_runDelete_of_error {s : Scope} {name : String} {f : Failure}
    (h : (s.runDelete name).outcome = .error f) : (s.runDelete name).scope = s := by
  unfold runDelete at h ⊢
  cases hd : s.delete? name with
  | some after =>
    rw [hd] at h
    exact absurd h (by simp)
  | none => rfl

end Scope

end LineCalculator
