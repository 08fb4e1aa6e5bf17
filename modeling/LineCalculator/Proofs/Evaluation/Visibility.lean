import LineCalculator.Proofs.Evaluation.Course

/-!
# What an expression can see of a scope

A scope has layers and constants, and an expression cannot tell them apart.  It asks for the
values of names, and where a value is found makes no difference to it.  So scopes of any shape
that give the names it reads the same values are the same to it: its run has the same outcome
in both, does the same to variables, and binds the same values in the innermost layer of
either (`Scope.run_eq_of_agreesOn`).

## Flat scopes

In particular the layers of a scope may be laid over each other to a single one
(`Scope.flatten`).  That keeps the value of every name, and binding a name in the innermost
layer or in the only one comes to the same after it (`Scope.flatten_assign`).  So running an
expression and flattening the scope may change places.

Why the agreement of the scopes lasts while names are bound is no concern of this module.
Bindings that have been made are part of the course that the runs have in common, and the
same bindings leave scopes in agreement (`Scope.AgreesOn.assignAll`).
-/

namespace LineCalculator

/-! ## Layers over layers -/

namespace Layer

/-- A layer over another one, in a single layer: where both bind a name, the upper one counts. -/
def above (upper lower : Layer) : Layer :=
  upper.bindings.foldr (fun b layer => layer.insert b.1 b.2) lower

theorem find?_foldr_insert (bindings : List Binding) (lower : Layer) (name : String) :
    (bindings.foldr (fun b layer => layer.insert b.1 b.2) lower).find? name =
      (bindings.lookup name).or (lower.find? name) := by
  induction bindings with
  | nil => rfl
  | cons b bindings ih =>
    rw [List.foldr_cons, find?_insert, lookup_cons_eq, ih]
    by_cases h : name = b.1 <;> simp [h]

theorem find?_above (upper lower : Layer) (name : String) :
    (upper.above lower).find? name = (upper.find? name).or (lower.find? name) :=
  find?_foldr_insert upper.bindings lower name

/-- Some layers, each over the ones behind it, in a single layer. -/
def stacked (layers : List Layer) : Layer := layers.foldr above empty

theorem find?_stacked (layers : List Layer) (name : String) :
    (stacked layers).find? name = layers.findSome? (·.find? name) := by
  induction layers with
  | nil => rfl
  | cons layer layers ih =>
    show (layer.above (stacked layers)).find? name = _
    rw [find?_above, ih, List.findSome?_cons]
    cases layer.find? name with
    | some value => rfl
    | none => rfl

end Layer

namespace Scope

/-- A scope with its layers in a single one. -/
def flatten (s : Scope) : Scope := ⟨s.builtins, ⟨Layer.stacked s.layers.inwards, []⟩⟩

@[simp] theorem lookup?_flatten (s : Scope) (name : String) :
    s.flatten.lookup? name = s.lookup? name := by
  unfold lookup?
  rw [List.findSome?_append, List.findSome?_append]
  congr 1
  show List.findSome? _ [Layer.stacked s.layers.inwards] = _
  rw [List.findSome?_singleton, Layer.find?_stacked]

theorem flatten_assign (s : Scope) (name : String) (value : Binary64) :
    (s.assign name value).flatten = s.flatten.assign name value := by
  refine eq_of_find? rfl rfl fun other => ?_
  show (Layer.stacked (s.assign name value).layers.inwards).find? other =
    ((Layer.stacked s.layers.inwards).insert name value).find? other
  rw [Layer.find?_insert, Layer.find?_stacked, Layer.find?_stacked]
  show List.findSome? _ (s.layers.inner.insert name value :: s.layers.outer) = if _ then _ else
    List.findSome? _ (s.layers.inner :: s.layers.outer)
  rw [List.findSome?_cons, List.findSome?_cons, Layer.find?_insert]
  by_cases h : other = name <;> simp [h]

theorem flatten_assignAll (s : Scope) (bindings : List Binding) :
    (s.assignAll bindings).flatten = s.flatten.assignAll bindings := by
  induction bindings generalizing s with
  | nil => rfl
  | cons b bindings ih => rw [assignAll_cons, ih, flatten_assign, assignAll_cons]

/-! ## Runs in scopes that agree -/

/-- **A run depends on the visible values of the names read and on nothing else.**  In two
scopes that give these names the same values, whatever layers and constants they are made of,
it has the same outcome, with the same account of what was done to variables.  If it comes to
a value, every target and the answer are bound in the innermost layers of both, to the same
numbers; if it fails with an error of the calculator, both scopes are as they were.  And it
makes no difference whether the layers of a scope are laid over each other before a run or
after it. -/
theorem run_eq_of_agreesOn {s s' : Scope} {e : Expr} (h : s.AgreesOn e.reads s') :
    (s'.run e).outcome = (s.run e).outcome ∧ (s'.run e).effects = (s.run e).effects ∧
    (∀ value, (s.run e).outcome = .ok value → ∀ name, name ∈ e.targets ∨ name = Run.answerName →
      ∃ bound, (s.run e).scope.layers.inner.find? name = some bound ∧
        (s'.run e).scope.layers.inner.find? name = some bound) ∧
    (∀ err, (s.run e).outcome = .error (.error err) →
      (s.run e).scope = s ∧ (s'.run e).scope = s') ∧
    s.flatten.run e = { s.run e with scope := (s.run e).scope.flatten } := by
  obtain ⟨c, hbinds, hcourse⟩ := s.exists_course e
  have hrun := hcourse s (.refl _ _)
  have hrun' := hcourse s' h
  have hflat := hcourse s.flatten fun name _ => s.lookup?_flatten name
  rw [hrun, hrun', hflat]
  refine ⟨rfl, rfl, fun value hok name hname => ?_, fun err herr => ?_, ?_⟩
  · have hmem := (Run.mem_kept_of_ok hbinds hok name).2 hname
    obtain ⟨bound, hbound⟩ := exists_latest?_of_mem hmem
    refine ⟨bound, ?_, ?_⟩
    · show (s.assignAll (Run.kept c)).layers.inner.find? name = some bound
      rw [find?_inner_assignAll, hbound]
      rfl
    · show (s'.assignAll (Run.kept c)).layers.inner.find? name = some bound
      rw [find?_inner_assignAll, hbound]
      rfl
  · unfold Run.ofCourse
    rw [Run.kept_of_error herr]
    exact ⟨rfl, rfl⟩
  · unfold Run.ofCourse
    rw [flatten_assignAll]

/-- A constant may as well be a variable of an outer layer, also where the expression covers it
on the way. -/
theorem run_eq_of_agreesOn_covered :
    (ofBuiltins constants).AgreesOn ["pi", "pi"] ⟨Layer.empty, ⟨Layer.empty, [constants]⟩⟩ ∧
      (Scope.run ⟨Layer.empty, ⟨Layer.empty, [constants]⟩⟩
        (.binary .multiply (.assign "pi" (.unary .negate (.var "pi"))) (.var "pi"))).outcome =
      ((ofBuiltins constants).run
        (.binary .multiply (.assign "pi" (.unary .negate (.var "pi"))) (.var "pi"))).outcome := by
  have hagrees : (ofBuiltins constants).AgreesOn ["pi", "pi"]
      ⟨Layer.empty, ⟨Layer.empty, [constants]⟩⟩ := by
    intro name hname
    obtain rfl : name = "pi" := by simpa using hname
    decide
  refine ⟨hagrees, (run_eq_of_agreesOn ?_).1⟩
  simpa only [Expr.reads, List.singleton_append] using hagrees

end Scope

end LineCalculator
