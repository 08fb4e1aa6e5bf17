import LineCalculator.Proofs.Evaluation.Chains

/-!
# The meaning of an expression

What an expression computes, by its structure alone: the operands of an operator
one after the other, the value of an assignment before the binding, and the
arguments of a call in their order, once it is known that the call can be made.
No room is counted and nothing is peeled off.

`Expr.evaluate` is the same computation with limited room.  The two are compared
as functions of the memory, so agreement covers the value or the first failure,
and with either the bindings that had been made by then.

## Agreement as long as there is room

The only way in which the evaluator may differ from the meaning is to fail with
`tooDeep`.  `Evaluation.Agrees` says so for any two evaluations, and it is kept
by sequencing (`Agrees.bind`): where the first part runs out of room the whole
does, and where it does not the second part starts with the same value in the
same memory.  One induction over the expression compares the evaluator with
itself in more room (`Expr.evaluate_agrees_of_le`), and in room enough it does
what the expression means (`Expr.exists_enough_room`).
-/

namespace LineCalculator

/-- The value of a function at its arguments.  Every function takes one, and of
any other number nothing is ever asked. -/
def Builtin.applyTo (f : Builtin) : List Binary64 → Binary64
  | [x] => f.apply x
  | _ => .nan

namespace Expr

mutual

/-- What an expression computes. -/
def meaning : Expr → Evaluation Binary64
  | .literal value => pure value
  | .var name => Evaluation.lookup name
  | .unary op operand => do
    let value ← operand.meaning
    pure (op.apply value)
  | .binary op left right => do
    let x ← left.meaning
    let y ← right.meaning
    Evaluation.ofExcept (op.apply x y)
  | .assign name e => do
    let value ← e.meaning
    Evaluation.assign name value
    pure value
  | .call name arguments =>
    match Builtin.ofName? name with
    | none => Evaluation.fail (.undefinedFunction name)
    | some f =>
      if arguments.length = f.arity then do
        let values ← meanings arguments
        pure (f.applyTo values)
      else Evaluation.fail (.arityMismatch name f.arity arguments.length)

/-- What some expressions compute, one after the other. -/
def meanings : List Expr → Evaluation (List Binary64)
  | [] => pure []
  | e :: rest => do
    let value ← e.meaning
    let values ← meanings rest
    pure (value :: values)

end

end Expr

namespace Evaluation

variable {α β : Type}

/-- From a memory, an evaluation fails for want of room. -/
def RunsOut (x : Evaluation α) (m : Memory) : Prop := ∃ m', x m = .error (.error .tooDeep) m'

/-- An evaluation does the same as another one unless it runs out of room. -/
def Agrees (x y : Evaluation α) : Prop := ∀ m, x.RunsOut m ∨ x m = y m

theorem Agrees.refl (x : Evaluation α) : x.Agrees x := fun _ => Or.inr rfl

theorem agrees_tooDeep (y : Evaluation α) : (fail .tooDeep).Agrees y := fun m => Or.inl ⟨m, rfl⟩

/-- With room for the account an assignment is made as always. -/
theorem assignWithin_of_le {cost room : Nat} (h : cost ≤ room) (name : String)
    (value : Binary64) : assignWithin cost room name value = assign name value :=
  funext fun _ => if_pos h

theorem agrees_assignWithin {cost cost' room wider : Nat} (hcost : cost' ≤ cost)
    (hroom : room ≤ wider) (name : String) (value : Binary64) :
    (assignWithin cost room name value).Agrees (assignWithin cost' wider name value) := by
  by_cases h : cost ≤ room
  · rw [assignWithin_of_le h, assignWithin_of_le (Nat.le_trans hcost (Nat.le_trans h hroom))]
    exact Agrees.refl _
  · exact fun m => Or.inl ⟨_, if_neg h⟩

theorem bind_ok {x : Evaluation α} {f : α → Evaluation β} {m m' : Memory} {a : α}
    (h : x m = .ok a m') : (x >>= f) m = f a m' := by
  show EStateM.bind x f m = f a m'
  simp only [EStateM.bind, h]

theorem bind_error {x : Evaluation α} {f : α → Evaluation β} {m m' : Memory} {e : Failure}
    (h : x m = .error e m') : (x >>= f) m = .error e m' := by
  show EStateM.bind x f m = .error e m'
  simp only [EStateM.bind, h]

/-- Agreement is kept by going on in agreement. -/
theorem Agrees.bind {x y : Evaluation α} {f g : α → Evaluation β} (hxy : x.Agrees y)
    (hfg : ∀ a, (f a).Agrees (g a)) : (x >>= f).Agrees (y >>= g) := by
  intro m
  rcases hxy m with ⟨m', hx⟩ | hx
  · exact Or.inl ⟨m', bind_error hx⟩
  · cases hy : y m with
    | ok a m' =>
      rw [hy] at hx
      rw [bind_ok hy, RunsOut, bind_ok hx]
      exact hfg a m'
    | error e m' =>
      rw [hy] at hx
      exact Or.inr ((bind_error hx).trans (bind_error hy).symm)

end Evaluation

namespace Expr

open Evaluation

variable {cost : Nat}

/-- An assignment that there is room to keep account of is made with the value of its
expression. -/
theorem evaluate_assign {room : Nat} (h : cost ≤ room) (name : String) (e : Expr) :
    evaluate cost (room + 1) (.assign name e) = (do
      let value ← evaluate cost room e
      Evaluation.assign name value
      pure value) := by
  rw [evaluate]
  simp only [assignWithin_of_le h]

/-! ## A call with one argument

Every function takes one argument, so a call is either made with the value of
its one argument or not made at all. -/

theorem arity_eq_one (f : Builtin) : f.arity = 1 := by cases f <;> rfl

theorem meaning_call_single {name : String} {f : Builtin} (hf : Builtin.ofName? name = some f)
    (e : Expr) : meaning (.call name [e]) = (do
      let value ← e.meaning
      pure (f.apply value)) := by
  simp only [meaning, meanings, hf, arity_eq_one, List.length_singleton, if_true, bind_assoc,
    pure_bind, Builtin.applyTo]

theorem meaning_call_other {name : String} {f : Builtin} (hf : Builtin.ofName? name = some f)
    {arguments : List Expr} (h : arguments.length ≠ 1) :
    meaning (.call name arguments) = fail (.arityMismatch name f.arity arguments.length) := by
  simp only [meaning, hf, arity_eq_one, h, if_false]

theorem meaning_call_undefined {name : String} (hf : Builtin.ofName? name = none)
    (arguments : List Expr) :
    meaning (.call name arguments) = fail (.undefinedFunction name) := by
  simp only [meaning, hf]

/-- With room for it, a call evaluates its argument. -/
theorem evaluate_call_single {name : String} {f : Builtin} (hf : Builtin.ofName? name = some f)
    (room : Nat) (e : Expr) : evaluate cost (room + 3) (.call name [e]) = (do
      let value ← evaluate cost room e
      pure (f.apply value)) := by
  simp only [evaluate, hf]

theorem evaluate_call_other {name : String} {arguments : List Expr} (room : Nat)
    (h : Builtin.ofName? name = none ∨ arguments.length ≠ 1) :
    evaluate cost (room + 3) (.call name arguments) = meaning (.call name arguments) := by
  cases hf : Builtin.ofName? name with
  | none =>
    rw [meaning_call_undefined hf]
    simp only [evaluate, hf]
  | some f =>
    have hlen : arguments.length ≠ 1 := h.resolve_left (by simp [hf])
    rw [meaning_call_other hf hlen]
    simp only [evaluate, hf]
    rcases arguments with _ | ⟨e, _ | ⟨e', rest⟩⟩
    · rfl
    · exact absurd rfl hlen
    · rfl

/-- A call is one of a function with one argument, or its name or the number of its
arguments is wrong. -/
theorem call_cases (name : String) (arguments : List Expr) :
    (∃ f e, Builtin.ofName? name = some f ∧ arguments = [e]) ∨
      (Builtin.ofName? name = none ∨ arguments.length ≠ 1) := by
  cases hf : Builtin.ofName? name with
  | none => exact Or.inr (Or.inl rfl)
  | some f =>
    rcases arguments with _ | ⟨e, _ | ⟨e', rest⟩⟩
    · exact Or.inr (Or.inr (by simp))
    · exact Or.inl ⟨f, e, rfl, rfl⟩
    · exact Or.inr (Or.inr (by simp))

/-! ## The evaluator agrees with the meaning -/

theorem signRoom_mono {room wider : Nat} (h : room ≤ wider) (e : Expr) :
    signRoom room e ≤ signRoom wider e := by
  cases e <;> simp [signRoom, h]

theorem linkRoom_mono {room wider : Nat} (h : room ≤ wider) (e : Expr) :
    linkRoom room e ≤ linkRoom wider e := by
  cases e <;> simp [linkRoom, h]

/-- More room than some units and a rest leaves at least that rest besides the units. -/
theorem exists_rest_of_le {room units wider : Nat} (h : room + units ≤ wider) :
    ∃ rest, wider = rest + units ∧ room ≤ rest := by
  obtain ⟨more, rfl⟩ := Nat.exists_eq_add_of_le h
  exact ⟨room + more, by omega, Nat.le_add_right room more⟩

/-- With less room, or with more to pay for the account, the evaluator does the same as long as
there is room. -/
theorem evaluate_agrees_of_le {cost cost' : Nat} (hcost : cost' ≤ cost) (e : Expr)
    {room wider : Nat} (h : room ≤ wider) :
    (evaluate cost room e).Agrees (evaluate cost' wider e) := by
  induction e generalizing room wider with
  | literal value =>
    cases room with
    | zero => exact agrees_tooDeep _
    | succ room =>
      obtain ⟨wider, rfl, -⟩ := exists_rest_of_le h
      exact Agrees.refl _
  | var name =>
    cases room with
    | zero => exact agrees_tooDeep _
    | succ room =>
      obtain ⟨wider, rfl, -⟩ := exists_rest_of_le h
      exact Agrees.refl _
  | unary op operand ih =>
    match room with
    | 0 => exact agrees_tooDeep _
    | 1 => exact agrees_tooDeep _
    | room + 2 =>
      obtain ⟨wider, rfl, hroom⟩ := exists_rest_of_le h
      rw [evaluate_unary, evaluate_unary]
      exact (ih (signRoom_mono hroom operand)).bind fun value => Agrees.refl _
  | binary op left right ihl ihr =>
    match room with
    | 0 => exact agrees_tooDeep _
    | 1 => exact agrees_tooDeep _
    | room + 2 =>
      obtain ⟨wider, rfl, hroom⟩ := exists_rest_of_le h
      rw [evaluate_binary, evaluate_binary]
      exact (ihl (linkRoom_mono hroom left)).bind fun x =>
        (ihr hroom).bind fun y => Agrees.refl _
  | assign name e ih =>
    cases room with
    | zero => exact agrees_tooDeep _
    | succ room =>
      obtain ⟨wider, rfl, hroom⟩ := exists_rest_of_le h
      exact (ih hroom).bind fun value =>
        (agrees_assignWithin hcost hroom name value).bind fun _ => Agrees.refl _
  | call name arguments ih =>
    match room with
    | 0 => exact agrees_tooDeep _
    | 1 => exact agrees_tooDeep _
    | 2 => exact agrees_tooDeep _
    | room + 3 =>
      obtain ⟨wider, rfl, hroom⟩ := exists_rest_of_le h
      rcases call_cases name arguments with ⟨f, e, hf, rfl⟩ | hother
      · rw [evaluate_call_single hf, evaluate_call_single hf]
        exact (ih e List.mem_cons_self hroom).bind fun value => Agrees.refl _
      · rw [evaluate_call_other room hother, evaluate_call_other wider hother]
        exact Agrees.refl _

theorem le_signRoom (room : Nat) (e : Expr) : room ≤ signRoom room e := by
  cases e <;> simp [signRoom]

theorem le_linkRoom (room : Nat) (e : Expr) : room ≤ linkRoom room e := by
  cases e <;> simp [linkRoom]

/-- For every expression there is room enough. -/
theorem exists_enough_room (cost : Nat) (e : Expr) :
    ∃ enough, ∀ room, enough ≤ room → evaluate cost room e = e.meaning := by
  induction e with
  | literal value =>
    refine ⟨1, fun room h => ?_⟩
    obtain ⟨room, rfl⟩ := Nat.exists_eq_add_of_le' h
    rfl
  | var name =>
    refine ⟨1, fun room h => ?_⟩
    obtain ⟨room, rfl⟩ := Nat.exists_eq_add_of_le' h
    rfl
  | unary op operand ih =>
    obtain ⟨n, hn⟩ := ih
    refine ⟨n + 2, fun room h => ?_⟩
    obtain ⟨extra, rfl⟩ := Nat.exists_eq_add_of_le' h
    have hroom : n ≤ signRoom (extra + n) operand :=
      Nat.le_trans (Nat.le_add_left n extra) (le_signRoom _ _)
    rw [← Nat.add_assoc, evaluate_unary, hn _ hroom, meaning]
  | binary op left right ihl ihr =>
    obtain ⟨n, hn⟩ := ihl
    obtain ⟨k, hk⟩ := ihr
    refine ⟨max n k + 2, fun room h => ?_⟩
    obtain ⟨extra, rfl⟩ := Nat.exists_eq_add_of_le' h
    have hleft : n ≤ linkRoom (extra + max n k) left :=
      Nat.le_trans (by omega) (le_linkRoom _ _)
    have hright : k ≤ extra + max n k := by omega
    rw [← Nat.add_assoc, evaluate_binary, hn _ hleft, hk _ hright, meaning]
  | assign name e ih =>
    obtain ⟨n, hn⟩ := ih
    refine ⟨max n cost + 1, fun room h => ?_⟩
    obtain ⟨extra, rfl⟩ := Nat.exists_eq_add_of_le' h
    have hvalue : n ≤ extra + max n cost := by omega
    have haccount : cost ≤ extra + max n cost := by omega
    rw [← Nat.add_assoc, evaluate_assign haccount, hn _ hvalue, meaning]
  | call name arguments ih =>
    rcases call_cases name arguments with ⟨f, e, hf, rfl⟩ | hother
    · obtain ⟨n, hn⟩ := ih e List.mem_cons_self
      refine ⟨n + 3, fun room h => ?_⟩
      obtain ⟨extra, rfl⟩ := Nat.exists_eq_add_of_le' h
      rw [← Nat.add_assoc, evaluate_call_single hf, hn _ (Nat.le_add_left n extra),
        meaning_call_single hf]
    · refine ⟨3, fun room h => ?_⟩
      obtain ⟨extra, rfl⟩ := Nat.exists_eq_add_of_le' h
      exact evaluate_call_other extra hother

/-- As long as there is room, the evaluator does what the expression means. -/
theorem evaluate_agrees (cost : Nat) (e : Expr) (room : Nat) :
    (evaluate cost room e).Agrees e.meaning := by
  obtain ⟨enough, henough⟩ := exists_enough_room cost e
  rw [← henough (max room enough) (Nat.le_max_right room enough)]
  exact evaluate_agrees_of_le (Nat.le_refl cost) e (Nat.le_max_left room enough)

end Expr

/-! ## What a meaning can fail with

No room is counted, so no meaning fails for want of it, and a call is refused
for the number of its arguments only where that number is wrong. -/

/-- A failure that says something true of a meaning. -/
def Failure.Founded : Failure → Prop
  | .error .tooDeep => False
  | .error (.arityMismatch _ expected found) => found ≠ expected
  | _ => True

namespace Evaluation

variable {α β : Type}

/-- An evaluation fails only with failures of some kind. -/
def FailsOnlyWith (P : Failure → Prop) (x : Evaluation α) : Prop :=
  ∀ m f m', x m = .error f m' → P f

theorem failsOnlyWith_pure (P : Failure → Prop) (a : α) :
    FailsOnlyWith P (pure a : Evaluation α) := by
  intro m f m' h
  exact absurd (show EStateM.Result.ok a m = .error f m' from h) (by simp)

theorem failsOnlyWith_assign (P : Failure → Prop) (name : String) (value : Binary64) :
    FailsOnlyWith P (assign name value) := by
  intro m f m' h
  exact absurd (show EStateM.Result.ok () _ = .error f m' from h) (by simp)

theorem failsOnlyWith_fail {P : Failure → Prop} {e : CalcError} (h : P (.error e)) :
    FailsOnlyWith P (fail e : Evaluation α) := by
  intro m f m' hfail
  obtain ⟨rfl, -⟩ := EStateM.Result.error.inj hfail
  exact h

theorem FailsOnlyWith.bind {P : Failure → Prop} {x : Evaluation α} {f : α → Evaluation β}
    (hx : FailsOnlyWith P x) (hf : ∀ a, FailsOnlyWith P (f a)) : FailsOnlyWith P (x >>= f) := by
  intro m e m' h
  cases hm : x m with
  | ok a next =>
    rw [bind_ok hm] at h
    exact hf a next e m' h
  | error e' next =>
    rw [bind_error hm] at h
    obtain ⟨rfl, rfl⟩ := EStateM.Result.error.inj h
    exact hx m e' next hm

theorem failsOnlyWith_ofExcept {P : Failure → Prop} {result : Except Failure α}
    (h : ∀ f, result = .error f → P f) : FailsOnlyWith P (ofExcept result) := by
  intro m f m' hfail
  cases result with
  | ok a => exact absurd (show EStateM.Result.ok a m = .error f m' from hfail) (by simp)
  | error f' =>
    obtain ⟨rfl, -⟩ := EStateM.Result.error.inj hfail
    exact h f' rfl

end Evaluation

/-- An operator fails for a zero divisor or for want of a remainder. -/
theorem BinaryOp.apply_eq_error {op : BinaryOp} {x y : Binary64} {f : Failure}
    (h : op.apply x y = .error f) : f = .error .divideByZero ∨ f = .domain := by
  cases op with
  | divide =>
    simp only [BinaryOp.apply] at h
    split at h
    · exact Or.inl (Except.error.inj h).symm
    · exact absurd h (by simp)
  | modulo =>
    simp only [BinaryOp.apply] at h
    split at h
    · exact Or.inl (Except.error.inj h).symm
    · split at h
      · exact absurd h (by simp)
      · exact Or.inr (Except.error.inj h).symm
  | _ => exact absurd h (by simp [BinaryOp.apply])

namespace Expr

open Evaluation

theorem meaning_founded (e : Expr) : FailsOnlyWith Failure.Founded e.meaning := by
  induction e with
  | literal value => exact failsOnlyWith_pure _ value
  | var name =>
    intro m f m' h
    simp only [meaning, lookup] at h
    split at h
    · exact absurd h (by simp)
    · obtain ⟨rfl, -⟩ := EStateM.Result.error.inj h
      exact trivial
  | unary op operand ih => exact ih.bind fun value => failsOnlyWith_pure _ _
  | binary op left right ihl ihr =>
    refine ihl.bind fun x => ihr.bind fun y => failsOnlyWith_ofExcept fun f hf => ?_
    rcases BinaryOp.apply_eq_error hf with rfl | rfl
    · exact trivial
    · exact trivial
  | assign name e ih =>
    exact ih.bind fun value =>
      (failsOnlyWith_assign _ name value).bind fun _ => failsOnlyWith_pure _ _
  | call name arguments ih =>
    cases hf : Builtin.ofName? name with
    | none =>
      rw [meaning_call_undefined hf]
      exact failsOnlyWith_fail trivial
    | some f =>
      rcases call_cases name arguments with ⟨f', e, hf', rfl⟩ | hother
      · rw [meaning_call_single hf']
        exact (ih e List.mem_cons_self).bind fun value => failsOnlyWith_pure _ _
      · have hlen : arguments.length ≠ 1 := hother.resolve_left (by simp [hf])
        rw [meaning_call_other hf hlen]
        exact failsOnlyWith_fail (by simpa only [Failure.Founded, arity_eq_one] using hlen)

/-! ## The evaluator and the meaning -/

/-- **The evaluator computes the meaning of an expression.**  In every memory,
with any room and at any cost it fails for want of room, or it ends as the
meaning does: with the same value or the same failure, the same variables, and
the same account of what was done to them.  With room enough, which there is for
every expression, it never fails for want of it.  Where a call has the wrong number of
arguments, the failure says `few` of a smaller number than the function takes
and `many` of a larger one. -/
theorem evaluate_eq_meaning_or_tooDeep (cost : Nat) (e : Expr) :
    (∀ room m, (∃ m', evaluate cost room e m = .error (.error .tooDeep) m') ∨
      evaluate cost room e m = e.meaning m) ∧
    (∃ enough, ∀ extra, evaluate cost (enough + extra) e = e.meaning) ∧
    (∀ m name expected found m',
      e.meaning m = .error (.error (.arityMismatch name expected found)) m' →
        found < expected ∧ CalcError.amount expected found = "few" ∨
          expected < found ∧ CalcError.amount expected found = "many") := by
  refine ⟨evaluate_agrees cost e, ?_, ?_⟩
  · obtain ⟨enough, henough⟩ := exists_enough_room cost e
    exact ⟨enough, fun extra => henough _ (Nat.le_add_right enough extra)⟩
  · intro m name expected found m' h
    have hne : found ≠ expected := meaning_founded e m _ m' h
    rcases Nat.lt_or_gt_of_ne hne with hlt | hgt
    · exact Or.inl ⟨hlt, if_pos hlt⟩
    · exact Or.inr ⟨hgt, if_neg (Nat.not_lt.2 (Nat.le_of_lt hgt))⟩

end Expr

end LineCalculator
