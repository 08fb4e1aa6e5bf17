import LineCalculator.Proofs.Evaluation.Course

/-!
# The footprint of a run

What a run of an expression changes in its scope, and that runs which keep out of each
other's way may change places.

## 1.  What a run changes

A run binds names in the innermost layer and does nothing else to a scope.  Which names it
binds for good depends on how it ends (`Scope.run_binds_targets`): all targets and the answer
if it comes to a value, none if it fails with an error of the calculator, and some of the
targets if it fails without one.

## 2.  Runs that keep out of each other's way

Two expressions are independent if no name that one of them binds occurs in the other, and
neither mentions the answer (`Expr.Independent`).  Then the one sees no difference between the
scope before the other's run and the scope after it, so that it runs the same course in both
orders.  What the two courses bind for good are different names, all but the answer, which both
of them bind if both succeed; then the later one decides its value, and the scopes differ in
that value only (`Scope.independent_runs_commute`).
-/

namespace LineCalculator

/-! ## 1.  What a run changes -/

namespace Scope

/-- **A run changes what its expression says.**  It keeps the constants and all layers but the
innermost.  If it comes to a value, the innermost layer binds the names that it has bound
before, the targets and the answer; the answer is the value, and other names that are no
targets are bound as before.  If it fails with an error of the calculator, the scope is as it
was; and if it fails without one, names that are no targets are bound as before. -/
theorem run_binds_targets (s : Scope) (e : Expr) :
    (s.run e).scope.builtins = s.builtins ∧ (s.run e).scope.layers.outer = s.layers.outer ∧
    (∀ value, (s.run e).outcome = .ok value →
      (∀ name, (s.run e).scope.layers.inner.binds name = true ↔
        s.layers.inner.binds name = true ∨ name ∈ e.targets ∨ name = Run.answerName) ∧
      (∀ name, name ∉ e.targets → name ≠ Run.answerName →
        (s.run e).scope.layers.inner.find? name = s.layers.inner.find? name) ∧
      (s.run e).scope.layers.inner.find? Run.answerName = some value) ∧
    (∀ err, (s.run e).outcome = .error (.error err) → (s.run e).scope = s) ∧
    ((s.run e).outcome = .error .domain → ∀ name, name ∉ e.targets →
      (s.run e).scope.layers.inner.find? name = s.layers.inner.find? name) := by
  obtain ⟨c, hbinds, hcourse⟩ := s.exists_course e
  rw [hcourse s (.refl _ _)]
  refine ⟨s.builtins_assignAll _, s.outer_assignAll _, fun value hok => ⟨fun name => ?_,
    fun name htarget hanswer => ?_, ?_⟩, fun err herr => ?_, fun hdomain name htarget => ?_⟩
  · rw [← Run.mem_kept_of_ok hbinds hok name]
    exact binds_assignAll_iff
  · refine find?_assignAll_of_notMem ?_
    rw [Run.mem_kept_of_ok hbinds hok name]
    exact not_or.2 ⟨htarget, hanswer⟩
  · exact (s.find?_inner_assignAll _ _).trans (by rw [Run.latest?_kept_answer hok, Option.some_or])
  · show s.assignAll (Run.kept c) = s
    rw [Run.kept_of_error herr, assignAll_nil]
  · refine find?_assignAll_of_notMem fun hmem => ?_
    rcases Run.mem_kept hbinds hmem with htarget' | ⟨-, value, hok⟩
    · exact htarget htarget'
    · exact absurd (hok.symm.trans hdomain) (by simp)

end Scope

/-! ## 2.  Runs that keep out of each other's way -/

namespace Expr

/-- The names that occur in an expression, read or bound. -/
def names (e : Expr) : List String := e.reads ++ e.targets

/-- No name that one of two expressions binds occurs in the other, and neither mentions the
answer. -/
structure Independent (e e' : Expr) : Prop where
  targets : ∀ name ∈ e.targets, name ∉ e'.names
  targets' : ∀ name ∈ e'.targets, name ∉ e.names
  answer : Run.answerName ∉ e.names
  answer' : Run.answerName ∉ e'.names

theorem Independent.symm {e e' : Expr} (h : e.Independent e') : e'.Independent e :=
  ⟨h.targets', h.targets, h.answer', h.answer⟩

end Expr

namespace Scope

/-- Two scopes are equal but for the number that a name is bound to in the innermost layer. -/
structure EqualBut (name : String) (s s' : Scope) : Prop where
  builtins : s'.builtins = s.builtins
  outer : s'.layers.outer = s.layers.outer
  binds : s'.layers.inner.binds name = s.layers.inner.binds name
  others : ∀ other, other ≠ name → s'.layers.inner.find? other = s.layers.inner.find? other

/-- Bindings of a name that is not bound both before and behind may change places. -/
theorem find?_assignAll_comm (s : Scope) {bindings later : List Binding} {name : String}
    (h : ¬(name ∈ bindings.map (·.1) ∧ name ∈ later.map (·.1))) :
    ((s.assignAll bindings).assignAll later).layers.inner.find? name =
      ((s.assignAll later).assignAll bindings).layers.inner.find? name := by
  rcases Decidable.not_and_iff_not_or_not.1 h with hbefore | hbehind
  · rw [find?_inner_assignAll, find?_assignAll_of_notMem hbefore, find?_assignAll_of_notMem hbefore,
      find?_inner_assignAll]
  · rw [find?_assignAll_of_notMem hbehind, find?_inner_assignAll, find?_inner_assignAll,
      find?_assignAll_of_notMem hbehind]

theorem assignAll_comm (s : Scope) {bindings later : List Binding}
    (h : ∀ name, ¬(name ∈ bindings.map (·.1) ∧ name ∈ later.map (·.1))) :
    (s.assignAll bindings).assignAll later = (s.assignAll later).assignAll bindings := by
  refine eq_of_find? ?_ ?_ fun name => s.find?_assignAll_comm (h name)
  · simp only [builtins_assignAll]
  · simp only [outer_assignAll]

section Independent

variable {e e' : Expr} {c c' : Course Binary64}

/-- What one of two independent expressions binds for good does not occur in the other. -/
theorem notMem_names_of_mem_kept (h : e.Independent e') (hc : c.Binds e.targets) {name : String}
    (hname : name ∈ (Run.kept c).map (·.1)) : name ∉ e'.names := by
  rcases Run.mem_kept hc hname with htarget | ⟨rfl, -⟩
  · exact h.targets name htarget
  · exact h.answer'

/-- The run of one of two independent expressions leaves the scope in agreement for the other. -/
theorem agreesOn_kept (s : Scope) (h : e.Independent e') (hc : c.Binds e.targets) :
    s.AgreesOn e'.reads (s.assignAll (Run.kept c)) :=
  fun _ hreads => lookup?_assignAll_of_notMem fun hkept =>
    notMem_names_of_mem_kept h hc hkept (List.mem_append_left _ hreads)

/-- Only the answer can be bound for good by both of two independent expressions, and only if
both come to a value. -/
theorem eq_answer_of_mem_kept (h : e.Independent e') (hc : c.Binds e.targets)
    (hc' : c'.Binds e'.targets) {name : String}
    (hname : name ∈ (Run.kept c).map (·.1) ∧ name ∈ (Run.kept c').map (·.1)) :
    name = Run.answerName ∧ ∃ value value', c.outcome = .ok value ∧ c'.outcome = .ok value' := by
  have hother := notMem_names_of_mem_kept h hc hname.1
  have hother' := notMem_names_of_mem_kept h.symm hc' hname.2
  rcases Run.mem_kept hc hname.1 with htarget | ⟨hanswer, value, hok⟩
  · exact absurd (List.mem_append_right _ htarget) hother'
  · rcases Run.mem_kept hc' hname.2 with htarget' | ⟨-, value', hok'⟩
    · exact absurd (List.mem_append_right _ htarget') hother
    · exact ⟨hanswer, value, value', hok, hok'⟩

/-- **Independent runs may change places.**  In either order each of them has the outcome that
it has on its own, and the scopes that they leave are equal but for the value of the answer.
If one of the two fails, the scopes are equal. -/
theorem independent_runs_commute (s : Scope) (h : e.Independent e') :
    ((s.run e').scope.run e).outcome = (s.run e).outcome ∧
    ((s.run e).scope.run e').outcome = (s.run e').outcome ∧
    EqualBut Run.answerName ((s.run e).scope.run e').scope ((s.run e').scope.run e).scope ∧
    ((¬ ∃ value value', (s.run e).outcome = .ok value ∧ (s.run e').outcome = .ok value') →
      ((s.run e).scope.run e').scope = ((s.run e').scope.run e).scope) := by
  obtain ⟨c, hc, hcourse⟩ := s.exists_course e
  obtain ⟨c', hc', hcourse'⟩ := s.exists_course e'
  have hfirst : (s.run e).scope.run e' = Run.ofCourse (s.assignAll (Run.kept c)) c' := by
    rw [hcourse s (.refl _ _)]
    exact hcourse' _ (s.agreesOn_kept h hc)
  have hsecond : (s.run e').scope.run e = Run.ofCourse (s.assignAll (Run.kept c')) c := by
    rw [hcourse' s (.refl _ _)]
    exact hcourse _ (s.agreesOn_kept h.symm hc')
  rw [hfirst, hsecond, hcourse s (.refl _ _), hcourse' s (.refl _ _)]
  refine ⟨rfl, rfl, ⟨?_, ?_, ?_, fun name hname => ?_⟩, fun hfails => ?_⟩
  · simp only [Run.ofCourse, builtins_assignAll]
  · simp only [Run.ofCourse, outer_assignAll]
  · rw [Bool.eq_iff_iff]
    simp only [Run.ofCourse, binds_assignAll_iff]
    rw [or_right_comm]
  · exact s.find?_assignAll_comm fun hboth =>
      hname (eq_answer_of_mem_kept h hc hc' hboth.symm).1
  · exact s.assignAll_comm fun name hboth => hfails (eq_answer_of_mem_kept h hc hc' hboth).2

end Independent

/-- Two expressions may read the same name. -/
theorem independent_runs_commute_shared_read :
    Expr.Independent (.assign "a" (.binary .add (.var "pi") (.literal Binary64.one)))
        (.assign "b" (.binary .multiply (.var "pi") (.var "pi"))) ∧
      EqualBut Run.answerName
        (((ofBuiltins constants).run
          (.assign "a" (.binary .add (.var "pi") (.literal Binary64.one)))).scope.run
            (.assign "b" (.binary .multiply (.var "pi") (.var "pi")))).scope
        (((ofBuiltins constants).run
          (.assign "b" (.binary .multiply (.var "pi") (.var "pi")))).scope.run
            (.assign "a" (.binary .add (.var "pi") (.literal Binary64.one)))).scope := by
  have h : Expr.Independent (.assign "a" (.binary .add (.var "pi") (.literal Binary64.one)))
      (.assign "b" (.binary .multiply (.var "pi") (.var "pi"))) := by
    constructor <;> simp [Expr.names, Expr.reads, Expr.targets, Run.answerName]
  exact ⟨h, (independent_runs_commute _ h).2.2.1⟩

end Scope

end LineCalculator
