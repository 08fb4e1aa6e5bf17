import LineCalculator.Proofs.Evaluation.Frame

/-!
# The course of an evaluation

Two lists can be told from an expression alone: the names whose values it asks for
(`Expr.reads`), and the names that its assignments bind, in the order in which these are
evaluated (`Expr.targets`).  An evaluation has to do with nothing else in the memory that it
starts from.  It asks for the first names only, and what it leaves is that memory with
bindings of the second ones, made one after the other.

So an evaluation has a course, the bindings that it makes together with its outcome, and
where the course depends on the memory it does so through the values of the names read.
`Evaluation.Confined` says this of any evaluation, with the two lists of names, and
sequencing puts the lists together (`Confined.bind`).  The theorem for expressions is then one
induction (`Expr.evaluate_confined`).

## Failures

An evaluation that comes to a value has evaluated every assignment, so its bindings are of all
the targets.  One that fails has bound the first few of them.  In either case what has been
bound is known from the course, which is why a run can be told from the course as well: what
stays of the bindings is all, with the answer behind them, or nothing, or all without an
answer (`Run.kept`).
-/

namespace LineCalculator

/-! ## What stands in an expression -/

namespace Expr

/-- The names whose values an expression asks for. -/
def reads : Expr → List String
  | .literal _ => []
  | .var name => [name]
  | .unary _ operand => operand.reads
  | .binary _ left right => left.reads ++ right.reads
  | .assign _ value => value.reads
  | .call _ arguments => arguments.flatMap reads

/-- The names that an expression binds, in the order in which it binds them. -/
def targets : Expr → List String
  | .literal _ => []
  | .var _ => []
  | .unary _ operand => operand.targets
  | .binary _ left right => left.targets ++ right.targets
  | .assign name value => value.targets ++ [name]
  | .call _ arguments => arguments.flatMap targets

end Expr

/-! ## Making several bindings -/

/-- The number that the last of some bindings of a name binds it to. -/
def latest? (bindings : List Binding) (name : String) : Option Binary64 :=
  bindings.reverse.lookup name

@[simp] theorem latest?_nil (name : String) : latest? [] name = none := rfl

theorem latest?_append (bindings later : List Binding) (name : String) :
    latest? (bindings ++ later) name = (latest? later name).or (latest? bindings name) := by
  unfold latest?
  rw [List.reverse_append, List.lookup_append]

theorem latest?_cons (b : Binding) (bindings : List Binding) (name : String) :
    latest? (b :: bindings) name =
      (latest? bindings name).or (if name = b.1 then some b.2 else none) := by
  rw [← List.singleton_append, latest?_append]
  congr 1
  exact Layer.lookup_cons_eq b [] name

theorem latest?_eq_none_iff (bindings : List Binding) (name : String) :
    latest? bindings name = none ↔ name ∉ bindings.map (·.1) := by
  induction bindings with
  | nil => simp
  | cons b bindings ih =>
    rw [latest?_cons, Option.or_eq_none_iff, ih]
    by_cases h : name = b.1 <;> simp [h]

theorem exists_latest?_of_mem {bindings : List Binding} {name : String}
    (h : name ∈ bindings.map (·.1)) : ∃ value, latest? bindings name = some value := by
  rw [← Option.ne_none_iff_exists']
  exact fun hnone => (latest?_eq_none_iff bindings name).1 hnone h

namespace Scope

/-- Binds some names, one after the other. -/
def assignAll (s : Scope) (bindings : List Binding) : Scope :=
  bindings.foldl (fun s b => s.assign b.1 b.2) s

section AssignAll

variable (s : Scope) (bindings later : List Binding) (b : Binding) (name : String)

@[simp] theorem assignAll_nil : s.assignAll [] = s := rfl

theorem assignAll_cons : s.assignAll (b :: bindings) = (s.assign b.1 b.2).assignAll bindings := rfl

theorem assignAll_append :
    s.assignAll (bindings ++ later) = (s.assignAll bindings).assignAll later :=
  List.foldl_append

@[simp] theorem builtins_assignAll : (s.assignAll bindings).builtins = s.builtins := by
  induction bindings generalizing s with
  | nil => rfl
  | cons b bindings ih => exact ih (s.assign b.1 b.2)

@[simp] theorem outer_assignAll : (s.assignAll bindings).layers.outer = s.layers.outer := by
  induction bindings generalizing s with
  | nil => rfl
  | cons b bindings ih => exact ih (s.assign b.1 b.2)

/-- The innermost layer has the last of the bindings of a name, or else what it had. -/
theorem find?_inner_assignAll : (s.assignAll bindings).layers.inner.find? name =
    (latest? bindings name).or (s.layers.inner.find? name) := by
  induction bindings generalizing s with
  | nil => rfl
  | cons b bindings ih =>
    rw [assignAll_cons, ih, latest?_cons, Option.or_assoc]
    congr 1
    show (s.layers.inner.insert b.1 b.2).find? name = _
    rw [Layer.find?_insert]
    by_cases h : name = b.1 <;> simp [h]

/-- The last of the bindings of a name is seen, or else what was seen before. -/
theorem lookup?_assignAll :
    (s.assignAll bindings).lookup? name = (latest? bindings name).or (s.lookup? name) := by
  induction bindings generalizing s with
  | nil => rfl
  | cons b bindings ih =>
    rw [assignAll_cons, ih, latest?_cons, Option.or_assoc, lookup?_assign]
    by_cases h : name = b.1 <;> simp [h]

variable {s bindings name}

theorem find?_assignAll_of_notMem (h : name ∉ bindings.map (·.1)) :
    (s.assignAll bindings).layers.inner.find? name = s.layers.inner.find? name := by
  rw [find?_inner_assignAll, (latest?_eq_none_iff bindings name).2 h, Option.none_or]

theorem lookup?_assignAll_of_notMem (h : name ∉ bindings.map (·.1)) :
    (s.assignAll bindings).lookup? name = s.lookup? name := by
  rw [lookup?_assignAll, (latest?_eq_none_iff bindings name).2 h, Option.none_or]

theorem binds_assignAll_iff : (s.assignAll bindings).layers.inner.binds name = true ↔
    s.layers.inner.binds name = true ∨ name ∈ bindings.map (·.1) := by
  by_cases h : name ∈ bindings.map (·.1)
  · obtain ⟨value, hvalue⟩ := exists_latest?_of_mem h
    simp only [Layer.binds, find?_inner_assignAll, hvalue, Option.some_or, Option.isSome_some, h,
      or_true]
  · simp only [Layer.binds, find?_assignAll_of_notMem h, h, or_false]

end AssignAll

/-- Scopes with the same constants and the same layers are equal, and of the innermost layer
it is enough that every name has the same value in it. -/
theorem eq_of_find? {s s' : Scope} (hbuiltins : s.builtins = s'.builtins)
    (houter : s.layers.outer = s'.layers.outer)
    (hinner : ∀ name, s.layers.inner.find? name = s'.layers.inner.find? name) : s = s' := by
  obtain ⟨builtins, inner, outer⟩ := s
  obtain ⟨builtins', inner', outer'⟩ := s'
  obtain rfl : builtins = builtins' := hbuiltins
  obtain rfl : outer = outer' := houter
  obtain rfl : inner = inner' := Layer.ext_find? hinner
  rfl

/-- Two scopes give some names the same values. -/
def AgreesOn (names : List String) (s s' : Scope) : Prop :=
  ∀ name ∈ names, s'.lookup? name = s.lookup? name

namespace AgreesOn

variable {names more : List String} {s s' : Scope}

theorem refl (names : List String) (s : Scope) : s.AgreesOn names s := fun _ _ => rfl

theorem mono (h : s.AgreesOn names s') (hmore : more ⊆ names) : s.AgreesOn more s' :=
  fun name hname => h name (hmore hname)

/-- The same bindings leave scopes in agreement. -/
theorem assignAll (h : s.AgreesOn names s') (bindings : List Binding) :
    (s.assignAll bindings).AgreesOn names (s'.assignAll bindings) := by
  intro name hname
  rw [lookup?_assignAll, lookup?_assignAll, h name hname]

end AgreesOn

end Scope

namespace Memory

/-- Binds some names, one after the other, and keeps account of it. -/
def replay (m : Memory) (bindings : List Binding) : Memory :=
  bindings.foldl (fun m b => ⟨m.scope.assign b.1 b.2, m.effects.push (.assigned b.1 b.2)⟩) m

variable (m : Memory) (bindings later : List Binding)

theorem replay_append : m.replay (bindings ++ later) = (m.replay bindings).replay later :=
  List.foldl_append

@[simp] theorem scope_replay : (m.replay bindings).scope = m.scope.assignAll bindings := by
  induction bindings generalizing m with
  | nil => rfl
  | cons b bindings ih => exact ih _

theorem effects_replay : (m.replay bindings).effects =
    m.effects ++ (bindings.map fun b => Effect.assigned b.1 b.2).toArray := by
  induction bindings generalizing m with
  | nil => exact (Array.append_empty).symm
  | cons b bindings ih =>
    refine (ih _).trans ?_
    rw [List.map_cons, List.toArray_cons, ← Array.append_assoc, ← Array.push_eq_append]

end Memory

/-! ## Courses -/

/-- The bindings that an evaluation makes, and what comes of it. -/
structure Course (α : Type) where
  bindings : List Binding
  outcome : Except Failure α

namespace Course

variable {α : Type}

/-- Where a course leads from a memory. -/
def result (c : Course α) (m : Memory) : EStateM.Result Failure Memory α :=
  match c.outcome with
  | .ok a => .ok a (m.replay c.bindings)
  | .error f => .error f (m.replay c.bindings)

/-- A course binds some names in their order: the first of them, and all if it comes to a
value. -/
structure Binds (names : List String) (c : Course α) : Prop where
  begins : c.bindings.map (·.1) <+: names
  all : ∀ a, c.outcome = .ok a → c.bindings.map (·.1) = names

theorem Binds.of_failed {names : List String} {bindings : List Binding} {f : Failure}
    (h : bindings.map (·.1) <+: names) : Binds names (⟨bindings, .error f⟩ : Course α) :=
  ⟨h, fun a ha => absurd ha (by simp)⟩

/-- A course that binds all of some names binds them whatever comes of it. -/
theorem Binds.of_eq {names : List String} {c : Course α} (h : c.bindings.map (·.1) = names) :
    c.Binds names :=
  ⟨h ▸ List.prefix_rfl, fun _ _ => h⟩

/-- A course that goes on behind one that came to a value. -/
theorem Binds.append {names names' : List String} {bindings : List Binding} {c : Course α}
    (h : bindings.map (·.1) = names) (hc : c.Binds names') :
    Binds (names ++ names') ⟨bindings ++ c.bindings, c.outcome⟩ := by
  subst h
  constructor
  · rw [List.map_append]
    exact (List.prefix_append_right_inj _).2 hc.begins
  · intro a ha
    rw [List.map_append, hc.all a ha]

end Course

namespace Evaluation

variable {α β : Type} {reads targets reads' targets' : List String}

/-- An evaluation asks for no names but some, and binds others in their order.  Its course is
the same from all memories that agree on the names that it asks for. -/
def Confined (reads targets : List String) (x : Evaluation α) : Prop :=
  ∀ s : Scope, ∃ c : Course α, c.Binds targets ∧
    ∀ m : Memory, s.AgreesOn reads m.scope → x m = c.result m

theorem confined_pure (reads : List String) (a : α) :
    (pure a : Evaluation α).Confined reads [] :=
  fun _ => ⟨⟨[], .ok a⟩, .of_eq rfl, fun _ _ => rfl⟩

theorem confined_fail (e : CalcError) : (fail e : Evaluation α).Confined reads targets :=
  fun _ => ⟨⟨[], .error (.error e)⟩, .of_failed List.nil_prefix, fun _ _ => rfl⟩

theorem confined_ofExcept (reads : List String) (result : Except Failure α) :
    (ofExcept result).Confined reads [] := by
  intro s
  refine ⟨⟨[], result⟩, .of_eq rfl, fun m _ => ?_⟩
  cases result with
  | ok a => rfl
  | error f => rfl

theorem confined_assign (reads : List String) (name : String) (value : Binary64) :
    (assign name value).Confined reads [name] :=
  fun _ => ⟨⟨[(name, value)], .ok ()⟩, .of_eq rfl, fun _ _ => rfl⟩

theorem confined_lookup (name : String) : (lookup name).Confined [name] [] := by
  intro s
  cases h : s.lookup? name with
  | some value =>
    refine ⟨⟨[], .ok value⟩, .of_eq rfl, fun m hm => ?_⟩
    have hvalue : m.scope.lookup? name = some value := (hm name List.mem_cons_self).trans h
    unfold lookup
    rw [hvalue]
    rfl
  | none =>
    refine ⟨⟨[], .error (.error (.undefinedVariable name))⟩, .of_eq rfl, fun m hm => ?_⟩
    have hnone : m.scope.lookup? name = none := (hm name List.mem_cons_self).trans h
    unfold lookup
    rw [hnone]
    rfl

/-- One evaluation after another asks for the names of both, and binds the names of the first
before those of the second. -/
theorem Confined.bind {x : Evaluation α} {f : α → Evaluation β} (hx : x.Confined reads targets)
    (hf : ∀ a, (f a).Confined reads' targets') :
    (x >>= f).Confined (reads ++ reads') (targets ++ targets') := by
  intro s
  obtain ⟨⟨bindings, outcome⟩, hbinds, hcourse⟩ := hx s
  have hfirst : ∀ m : Memory, s.AgreesOn (reads ++ reads') m.scope →
      x m = Course.result ⟨bindings, outcome⟩ m := fun m hm =>
    hcourse m (hm.mono (List.subset_append_left _ _))
  cases outcome with
  | error e =>
    refine ⟨⟨bindings, .error e⟩, ?_, fun m hm => bind_error (hfirst m hm)⟩
    exact .of_failed (hbinds.begins.trans (List.prefix_append targets targets'))
  | ok a =>
    -- the second part starts from the scope with the bindings of the first
    obtain ⟨c, hbinds', hcourse'⟩ := hf a (s.assignAll bindings)
    refine ⟨⟨bindings ++ c.bindings, c.outcome⟩, .append (hbinds.all a rfl) hbinds',
      fun m hm => ?_⟩
    have hagrees : (s.assignAll bindings).AgreesOn reads' (m.replay bindings).scope := by
      rw [Memory.scope_replay]
      exact (hm.mono (List.subset_append_right _ _)).assignAll bindings
    rw [bind_ok (hfirst m hm), hcourse' _ hagrees]
    unfold Course.result
    rw [Memory.replay_append]

theorem Confined.bind_pure {x : Evaluation α} {f : α → β} (hx : x.Confined reads targets) :
    (x >>= fun a => pure (f a)).Confined reads targets := by
  have h := hx.bind fun a => confined_pure [] (f a)
  rwa [List.append_nil, List.append_nil] at h

end Evaluation

open Evaluation in
/-- **An evaluation asks for the names that an expression reads and binds its targets**, all
of them in their order if it comes to a value and the first of them if it fails. -/
theorem Expr.evaluate_confined (e : Expr) (room : Nat) :
    (e.evaluate 0 room).Confined e.reads e.targets := by
  induction e generalizing room with
  | literal value =>
    rw [targets]
    cases room with
    | zero => exact confined_fail _
    | succ room => exact confined_pure _ value
  | var name =>
    rw [reads, targets]
    cases room with
    | zero => exact confined_fail _
    | succ room => exact confined_lookup name
  | unary op operand ih =>
    rw [reads, targets]
    match room with
    | 0 => exact confined_fail _
    | 1 => exact confined_fail _
    | room + 2 =>
      rw [evaluate_unary]
      exact (ih _).bind_pure
  | binary op left right ihl ihr =>
    rw [reads, targets]
    match room with
    | 0 => exact confined_fail _
    | 1 => exact confined_fail _
    | room + 2 =>
      rw [evaluate_binary]
      refine (ihl _).bind fun x => ?_
      have hright := (ihr room).bind fun y => confined_ofExcept [] (op.apply x y)
      rwa [List.append_nil, List.append_nil] at hright
  | assign name e ih =>
    rw [reads, targets]
    cases room with
    | zero => exact confined_fail _
    | succ room =>
      have h := (ih room).bind fun value =>
        (confined_assign [] name value).bind_pure (f := fun _ => value)
      rw [List.append_nil] at h
      rwa [evaluate_assign (Nat.zero_le room)]
  | call name arguments ih =>
    rw [reads, targets]
    match room with
    | 0 => exact confined_fail _
    | 1 => exact confined_fail _
    | 2 => exact confined_fail _
    | room + 3 =>
      rcases call_cases name arguments with ⟨f, e, hf, rfl⟩ | hother
      · rw [evaluate_call_single hf, List.flatMap_singleton, List.flatMap_singleton]
        exact (ih e List.mem_cons_self room).bind_pure
      · rw [evaluate_call_other room hother]
        cases hf : Builtin.ofName? name with
        | none =>
          rw [meaning_call_undefined hf]
          exact confined_fail _
        | some f =>
          rw [meaning_call_other hf (hother.resolve_left (by simp [hf]))]
          exact confined_fail _

/-! ## Runs -/

namespace Run

/-- The bindings that stay when a course has been run. -/
def kept (c : Course Binary64) : List Binding :=
  match c.outcome with
  | .ok value => c.bindings ++ [(answerName, value)]
  | .error (.error _) => []
  | .error .domain => c.bindings

/-- The run of a course. -/
def ofCourse (s : Scope) (c : Course Binary64) : Run Binary64 :=
  ⟨c.outcome, s.assignAll (kept c), (c.bindings.map fun b => Effect.assigned b.1 b.2).toArray⟩

theorem kept_of_ok {c : Course Binary64} {value : Binary64} (h : c.outcome = .ok value) :
    kept c = c.bindings ++ [(answerName, value)] := by
  rw [kept, h]

theorem kept_of_error {c : Course Binary64} {err : CalcError}
    (h : c.outcome = .error (.error err)) : kept c = [] := by
  rw [kept, h]

theorem kept_of_domain {c : Course Binary64} (h : c.outcome = .error .domain) :
    kept c = c.bindings := by
  rw [kept, h]

/-- A run that comes to a value binds all targets, and then the answer. -/
theorem mem_kept_of_ok {c : Course Binary64} {names : List String} {value : Binary64}
    (hbinds : c.Binds names) (h : c.outcome = .ok value) (name : String) :
    name ∈ (kept c).map (·.1) ↔ name ∈ names ∨ name = answerName := by
  rw [kept_of_ok h, List.map_append, hbinds.all value h, List.mem_append]
  simp

theorem latest?_kept_answer {c : Course Binary64} {value : Binary64}
    (h : c.outcome = .ok value) : latest? (kept c) answerName = some value := by
  rw [kept_of_ok h, latest?_append]
  rfl

/-- A run binds nothing but targets for good, and the answer if it comes to a value. -/
theorem mem_kept {c : Course Binary64} {names : List String} (hbinds : c.Binds names)
    {name : String} (hname : name ∈ (kept c).map (·.1)) :
    name ∈ names ∨ name = answerName ∧ ∃ value, c.outcome = .ok value := by
  cases hout : c.outcome with
  | ok value => exact ((mem_kept_of_ok hbinds hout name).1 hname).imp id fun h => ⟨h, value, rfl⟩
  | error f =>
    cases f with
    | domain =>
      rw [kept_of_domain hout] at hname
      exact Or.inl (hbinds.begins.subset hname)
    | error err =>
      rw [kept_of_error hout] at hname
      exact absurd hname List.not_mem_nil

theorem ofResult_result (s : Scope) (c : Course Binary64) :
    ofResult s.snapshot (c.result ⟨s, #[]⟩) = ofCourse s c := by
  obtain ⟨bindings, outcome⟩ := c
  have heffects := Memory.effects_replay ⟨s, #[]⟩ bindings
  rw [Array.empty_append] at heffects
  cases outcome with
  | ok value =>
    show (⟨.ok value, _, _⟩ : Run Binary64) = ⟨.ok value, s.assignAll (bindings ++ _), _⟩
    rw [heffects, Memory.scope_replay, Scope.assignAll_append]
    rfl
  | error f =>
    cases f with
    | domain =>
      show (⟨.error .domain, _, _⟩ : Run Binary64) = ⟨.error .domain, s.assignAll bindings, _⟩
      rw [heffects, Memory.scope_replay]
    | error e =>
      show (⟨.error (.error e), Scope.mk (Memory.replay ⟨s, #[]⟩ bindings).scope.builtins s.layers,
        _⟩ : Run Binary64) = ⟨.error (.error e), s, _⟩
      rw [heffects, Memory.scope_replay, Scope.builtins_assignAll]

end Run

/-- **A run follows a course that it has in common with all scopes that agree on the names
read.** -/
theorem Scope.exists_course (s : Scope) (e : Expr) :
    ∃ c : Course Binary64, c.Binds e.targets ∧
      ∀ s' : Scope, s.AgreesOn e.reads s' → s'.run e = Run.ofCourse s' c := by
  obtain ⟨c, hbinds, hcourse⟩ := e.evaluate_confined Run.room s
  refine ⟨c, hbinds, fun s' hagrees => ?_⟩
  have hresult : e.evaluate 0 Run.room ⟨s', #[]⟩ = c.result ⟨s', #[]⟩ := hcourse _ hagrees
  unfold run
  rw [hresult, Run.ofResult_result]

end LineCalculator
