import LineCalculator.Proofs.Session.Bindings
import LineCalculator.Proofs.Session.History

/-!
# A layer inside the others

A layer is opened, requests are made on the scope, which open and close further layers, and the
layer is closed again.  What is left of that in the layers around it?  Nothing is bound there,
because bindings are made in the innermost layer; but a name may be forgotten there, because a
request to forget goes outwards until it meets a binding.

## Which steps change a layer

Each layer is followed by its number, which does not change while layers inside it are opened
and closed.  A step changes what a layer binds a name to in two ways only: it assigns to the name
while the layer is the innermost (`Step.assigned?`), or it forgets the name and no layer inside
this one binds it (`Step.meets`).  One case distinction over the requests says so
(`responds_of_opens`), and from it an induction along a history says that of all its steps the
last one to change the layer tells what it binds in the end (`runs_of_openedAfter`).

The layer that was opened begins with no bindings, and of the layers around it none is ever the
innermost.  That makes the one what was last assigned in it, and takes from the others what was
forgotten in them and nothing else (`inner_layer_is_transparent`).
-/

namespace LineCalculator

namespace Session

/-! ## Opening and closing -/

/-- How many layers are open after a request on the scope, if so many were open before it.  Only
a layer that is open can be closed. -/
def Request.opens : Request → Nat → Option Nat
  | .push, opened => some (opened + 1)
  | .pop, opened + 1 => some opened
  | .pop, 0 => none
  | .lookup _, opened => some opened
  | .assign _ _, opened => some opened
  | .delete _, opened => some opened
  | .line _, _ => none
  | .run _, _ => none
  | .runStatement _, _ => none

/-- How many layers are open after some requests on the scope. -/
def openedAfter (opened : Nat) : List Request → Option Nat
  | [] => some opened
  | r :: rest => (r.opens opened).bind fun opened => openedAfter opened rest

/-- Requests on the scope that close only layers they have opened, and all of them. -/
def IsBalanced (requests : List Request) : Prop := openedAfter 0 requests = some 0

instance (requests : List Request) : Decidable (IsBalanced requests) :=
  inferInstanceAs (Decidable (_ = some 0))

/-! ## Steps -/

namespace Step

/-- What a name is assigned in the layer with `k` layers around it, if that is the innermost. -/
def assigned? (step : Step) (k : Nat) (name : String) : Option Binary64 :=
  match step.request with
  | .assign other value => if step.before.depth = k + 1 ∧ other = name then some value else none
  | _ => none

/-- Whether a name is forgotten while no layer inside the one with `k` layers around it binds the
name. -/
def meets (step : Step) (k : Nat) (name : String) : Bool :=
  match step.request with
  | .delete other =>
    other = name && (step.before.layers.outwards.drop (k + 1)).all fun layer => !layer.binds name
  | _ => false

/-- What a step makes the layer with `k` layers around it bind a name to, if it does. -/
def change? (step : Step) (k : Nat) (name : String) : Option (Option Binary64) :=
  if step.meets k name then some none else (step.assigned? k name).map some

theorem meets_delete_iff {s : Scope} {name other : String} {k : Nat} :
    (take s (.delete other)).meets k name = true ↔
      other = name ∧ ∀ j, k < j → s.binding? j name = none := by
  have hall : ((s.layers.outwards.drop (k + 1)).all fun layer => !layer.binds name) = true ↔
      ∀ j, k < j → s.binding? j name = none := by
    simp only [List.all_eq_true, Bool.not_eq_true', Scope.binds_eq_false_iff, Scope.binding?,
      Option.bind_eq_none_iff]
    refine ⟨fun h j hj layer hlayer => h layer ?_, fun h layer hlayer => ?_⟩
    · obtain ⟨m, rfl⟩ := Nat.exists_eq_add_of_lt hj
      refine List.mem_of_getElem? (i := m) ?_
      rw [List.getElem?_drop, ← hlayer]
      congr 1
      omega
    · obtain ⟨m, hm⟩ := List.mem_iff_getElem?.1 hlayer
      rw [List.getElem?_drop] at hm
      exact h _ (by omega) layer hm
  show (decide (other = name) &&
    (s.layers.outwards.drop (k + 1)).all fun layer => !layer.binds name) = true ↔ _
  rw [Bool.and_eq_true, decide_eq_true_iff, hall]

/-- To forget a name takes it from every layer that it meets. -/
theorem getD_change?_delete (s : Scope) (name : String) (k : Nat) (other : String)
    (found : Option Binary64) : ((take s (.delete name)).change? k other).getD found =
      if (take s (.delete name)).meets k other then none else found := by
  unfold change?
  split <;> rfl

/-- The layer from which a name is taken is the last that is met and has it. -/
theorem binding?_of_forgets {s after : Scope} {name : String} {m : Nat}
    (h : s.Forgets name after m) (k : Nat) (other : String) : after.binding? k other =
      if (take s (.delete name)).meets k other then none else s.binding? k other := by
  rw [h.binding]
  by_cases hmeets : (take s (.delete name)).meets k other = true
  · obtain ⟨rfl, hfree⟩ := meets_delete_iff.1 hmeets
    have hle : m ≤ k := Nat.le_of_not_lt fun hlt => h.bound (hfree m hlt)
    rw [if_pos hmeets]
    split
    case isTrue => rfl
    case isFalse hother =>
      exact h.innermost (Nat.lt_of_le_of_ne hle fun heq => hother ⟨heq.symm, rfl⟩)
  · rw [if_neg hmeets, if_neg]
    rintro ⟨rfl, rfl⟩
    exact hmeets (meets_delete_iff.2 ⟨rfl, fun j hj => h.innermost hj⟩)

theorem change?_eq_some_iff {step : Step} {k : Nat} {name : String} {value : Binary64} :
    step.change? k name = some (some value) ↔ step.assigned? k name = some value := by
  obtain ⟨before, request, response⟩ := step
  unfold change?
  split
  case isTrue hmeets =>
    -- a request that forgets assigns nothing
    cases request with
    | delete => simp [assigned?]
    | _ => cases hmeets
  case isFalse => simp

theorem change?_eq_none_iff {step : Step} {k : Nat} {name : String} :
    step.change? k name = none ↔ step.assigned? k name = none ∧ step.meets k name = false := by
  unfold change?
  split <;> simp_all

/-- A layer is only ever taken from while it is not the innermost. -/
theorem change?_of_lt_depth {step : Step} {k : Nat} (h : k + 1 < step.before.depth)
    (name : String) : step.change? k name = if step.meets k name then some none else none := by
  have hnone : step.assigned? k name = none := by
    unfold assigned?
    split
    · rw [if_neg (by omega)]
    · rfl
  rw [change?, hnone, Option.map_none]

end Step

/-- What the last of some steps to change it makes a layer bind a name to. -/
def lastChange? (steps : List Step) (k : Nat) (name : String) : Option (Option Binary64) :=
  steps.reverse.findSome? (·.change? k name)

theorem lastChange?_cons (step : Step) (later : List Step) (k : Nat) (name : String) :
    lastChange? (step :: later) k name = (lastChange? later k name).or (step.change? k name) := by
  unfold lastChange?
  rw [List.reverse_cons, List.findSome?_append, List.findSome?_singleton]

/-- A layer comes to bind a name to a value if that is what the name was last assigned there, and
if it has not been forgotten there since. -/
theorem lastChange?_eq_some_iff {steps : List Step} {k : Nat} {name : String} {value : Binary64} :
    lastChange? steps k name = some (some value) ↔ ∃ earlier step later,
      steps = earlier ++ step :: later ∧ step.assigned? k name = some value ∧
      ∀ u ∈ later, u.assigned? k name = none ∧ u.meets k name = false := by
  unfold lastChange?
  rw [List.findSome?_eq_some_iff]
  constructor
  · rintro ⟨later, step, earlier, hsteps, hstep, hlater⟩
    refine ⟨earlier.reverse, step, later.reverse, ?_, Step.change?_eq_some_iff.1 hstep, ?_⟩
    · rw [← List.reverse_inj, hsteps]
      simp
    · exact fun u hu => Step.change?_eq_none_iff.1 (hlater u (List.mem_reverse.1 hu))
  · rintro ⟨earlier, step, later, rfl, hstep, hlater⟩
    refine ⟨later.reverse, step, earlier.reverse, by simp, Step.change?_eq_some_iff.2 hstep, ?_⟩
    exact fun u hu => Step.change?_eq_none_iff.2 (hlater u (List.mem_reverse.1 hu))

/-- A layer that is never the innermost is left what has not been forgotten there. -/
theorem lastChange?_of_lt_depth {steps : List Step} {k : Nat}
    (h : ∀ step ∈ steps, k + 1 < step.before.depth) (name : String) (found : Option Binary64) :
    (lastChange? steps k name).getD found =
      if steps.any (·.meets k name) then none else found := by
  induction steps generalizing found with
  | nil => rfl
  | cons step later ih =>
    obtain ⟨hstep, hlater⟩ := List.forall_mem_cons.1 h
    rw [lastChange?_cons, Option.getD_or, ih hlater, Step.change?_of_lt_depth hstep, List.any_cons]
    cases step.meets k name <;> cases later.any (·.meets k name) <;> rfl

/-! ## One request -/

/-- What a request comes to, told of the layers that have less than `d` layers around them. -/
structure Responds (s : Scope) (r : Request) (d opened : Nat) : Prop where
  builtins : (respond s r).scope.builtins = s.builtins
  depth : (respond s r).scope.depth = d + opened
  binding : ∀ k < d, ∀ name, (respond s r).scope.binding? k name =
    ((Step.take s r).change? k name).getD (s.binding? k name)

/-- A request on the scope that leaves `d` layers open is told of them by the step it is. -/
theorem responds_of_opens {s : Scope} {r : Request} {d opened opened' : Nat} (hd : 0 < d)
    (hdepth : s.depth = d + opened) (h : r.opens opened = some opened') :
    Responds s r d opened' := by
  cases r with
  | line => cases h
  | run => cases h
  | runStatement => cases h
  | push =>
    cases h
    exact ⟨rfl, congrArg (· + 1) hdepth, fun k hk name => Scope.binding?_push s k name⟩
  | pop =>
    cases opened with
    | zero => cases h
    | succ opened =>
      cases h
      obtain ⟨layer, after, hpop⟩ := Scope.exists_pop? (s := s) (by omega)
      have hpops := Scope.pops_of_pop? hpop
      have hafter : (respond s .pop).scope = after := by
        rw [respond, hpop]
      have hone := hpops.depth
      refine ⟨hafter ▸ hpops.builtins, ?_, fun k hk name => ?_⟩
      · rw [hafter]
        omega
      · rw [hafter]
        exact hpops.stays (by omega) name
  | lookup name =>
    cases h
    have hsame : (respond s (.lookup name)).scope = s := by
      rw [respond]
      split <;> rfl
    rw [← hsame] at hdepth
    refine ⟨by rw [hsame], hdepth, fun k hk other => ?_⟩
    rw [hsame]
    rfl
  | assign name value =>
    cases h
    refine ⟨rfl, hdepth, fun k hk other => ?_⟩
    show (s.assign name value).binding? k other = _
    rw [Scope.binding?_assign]
    show _ = (((if s.depth = k + 1 ∧ name = other then some value else none).map some).getD _)
    split <;> rfl
  | delete name =>
    cases h
    cases hdelete : s.delete? name with
    | none =>
      have hsame : (respond s (.delete name)).scope = s := by
        rw [respond, hdelete]
        rfl
      refine ⟨by rw [hsame], by rw [hsame, hdepth], fun k hk other => ?_⟩
      rw [hsame, Step.getD_change?_delete]
      split
      case isTrue hmeets =>
        obtain ⟨rfl, -⟩ := Step.meets_delete_iff.1 hmeets
        exact Scope.binding?_of_delete?_eq_none hdelete k
      case isFalse => rfl
    | some after =>
      obtain ⟨m, hforgets⟩ := Scope.exists_forgets_of_delete? hdelete
      have hafter : (respond s (.delete name)).scope = after := by
        rw [respond, hdelete]
      refine ⟨hafter ▸ hforgets.builtins, ?_, fun k hk other => ?_⟩
      · rw [hafter, hforgets.depth, hdepth]
      · rw [hafter, Step.getD_change?_delete, Step.binding?_of_forgets hforgets]

/-! ## Histories -/

/-- What some requests come to, told of the layers that have less than `d` layers around them. -/
structure Runs (s : Scope) (requests : List Request) (d opened : Nat) : Prop where
  builtins : (scopeAfter s requests).builtins = s.builtins
  depth : (scopeAfter s requests).depth = d + opened
  binding : ∀ k < d, ∀ name, (scopeAfter s requests).binding? k name =
    (lastChange? (history s requests) k name).getD (s.binding? k name)
  /-- No step closes one of the layers or changes the constants. -/
  steps : ∀ step ∈ history s requests,
    d ≤ step.before.depth ∧ step.response.scope.builtins = s.builtins

/-- **What layers bind in the end is told by the last steps to change them.** -/
theorem runs_of_openedAfter {s : Scope} {requests : List Request} {d opened opened' : Nat}
    (hd : 0 < d) (hdepth : s.depth = d + opened)
    (h : openedAfter opened requests = some opened') : Runs s requests d opened' := by
  induction requests generalizing s opened with
  | nil =>
    cases h
    exact ⟨rfl, hdepth, fun k hk name => rfl, by simp [history]⟩
  | cons r rest ih =>
    obtain ⟨mid, hmid, hrest⟩ := Option.bind_eq_some_iff.1 h
    have hstep := responds_of_opens hd hdepth hmid
    have hlater := ih hstep.depth hrest
    refine ⟨hlater.builtins.trans hstep.builtins, hlater.depth, fun k hk name => ?_, ?_⟩
    · rw [scopeAfter, history, hlater.binding k hk, lastChange?_cons, Option.getD_or,
        hstep.binding k hk]
    · refine List.forall_mem_cons.2 ⟨⟨?_, hstep.builtins⟩, fun step hmem => ?_⟩
      · show d ≤ s.depth
        omega
      · obtain ⟨hle, hbuiltins⟩ := hlater.steps step hmem
        exact ⟨hle, hbuiltins.trans hstep.builtins⟩

/-! ## Opening a layer and closing it -/

/-- What is left of the steps that were taken in a layer inside those of a scope: what the layer
itself binds, and the scope without it. -/
structure Transparent (s : Scope) (steps : List Step) (layer : Layer) (after : Scope) : Prop where
  /-- The layer binds what was assigned in it and not forgotten there since. -/
  own : ∀ name value, layer.find? name = some value ↔ ∃ earlier step later,
    steps = earlier ++ step :: later ∧ step.assigned? s.depth name = some value ∧
    ∀ u ∈ later, u.assigned? s.depth name = none ∧ u.meets s.depth name = false
  depth : after.depth = s.depth
  /-- The layers around it bind what they did but for what was forgotten in them. -/
  around : ∀ k < s.depth, ∀ name, after.binding? k name =
    if steps.any (·.meets k name) then none else s.binding? k name
  /-- To forget a name takes away its innermost binding, or fails. -/
  forgets : ∀ step ∈ steps, ∀ name, step.request = .delete name →
    (∃ k, step.before.Forgets name step.response.scope k) ∨
      (∀ k, step.before.binding? k name = none) ∧ step.response.scope = step.before
  /-- If nothing was forgotten in the layers around it they are what they were. -/
  untouched : (∀ step ∈ steps, ∀ k < s.depth, ∀ name,
    s.binding? k name ≠ none → step.meets k name = false) → after = s
  builtins : after.builtins = s.builtins ∧
    ∀ step ∈ steps, step.response.scope.builtins = s.builtins
  /-- A name that no layer binds has the value of the constant, then and there. -/
  constants : ∀ t, t = after ∨ (∃ step ∈ steps, t = step.response.scope) → ∀ name,
    (∀ k, t.binding? k name = none) → t.lookup? name = s.builtins.find? name

theorem step_of_mem_history {s : Scope} {requests : List Request} {step : Step}
    (h : step ∈ history s requests) : step.response = respond step.before step.request := by
  induction requests generalizing s with
  | nil => cases h
  | cons r rest ih =>
    rcases List.mem_cons.1 h with rfl | hlater
    · rfl
    · exact ih hlater

theorem forgets_of_delete {step : Step} {name : String} (hstep : step.request = .delete name)
    (h : step.response = respond step.before step.request) :
    (∃ k, step.before.Forgets name step.response.scope k) ∨
      (∀ k, step.before.binding? k name = none) ∧ step.response.scope = step.before := by
  rw [h, hstep, respond]
  cases hdelete : step.before.delete? name with
  | none => exact Or.inr ⟨Scope.binding?_of_delete?_eq_none hdelete, rfl⟩
  | some after => exact Or.inl (Scope.exists_forgets_of_delete? hdelete)

/-- Layers from which nothing was taken are what they were. -/
theorem eq_of_around {s after : Scope} {steps : List Step} (hbuiltins : after.builtins = s.builtins)
    (hdepth : after.depth = s.depth)
    (haround : ∀ k < s.depth, ∀ name, after.binding? k name =
      if steps.any (·.meets k name) then none else s.binding? k name)
    (hclear : ∀ step ∈ steps, ∀ k < s.depth, ∀ name,
      s.binding? k name ≠ none → step.meets k name = false) : after = s := by
  refine Scope.ext_binding? hbuiltins hdepth fun k name => ?_
  by_cases hk : k < s.depth
  · rw [haround k hk]
    split
    case isFalse => rfl
    case isTrue hany =>
      obtain ⟨step, hmem, hmeets⟩ := List.any_eq_true.1 hany
      cases hbound : s.binding? k name with
      | none => rfl
      | some value =>
        rw [hclear step hmem k hk name (by simp [hbound])] at hmeets
        cases hmeets
  · have hle := Nat.le_of_not_lt hk
    rw [Scope.binding?_eq_none_of_le (hdepth ▸ hle), Scope.binding?_eq_none_of_le hle]

/-- **An inner layer is transparent to the layers around it.**  Requests that open and close
layers in pairs are made between the opening and the closing of a layer.  The layer that is
closed then holds the names that were assigned in it and not forgotten since, with their latest
values.  In the layers around it nothing is bound anew or otherwise, and a binding is gone only
if a request to forget met it. -/
theorem inner_layer_is_transparent (s : Scope) (requests : List Request)
    (h : IsBalanced requests) :
    ∃ layer after, respond (scopeAfter s.push requests) .pop = ⟨[], .popped layer, after⟩ ∧
      Transparent s (history s.push requests) layer after := by
  have hruns : Runs s.push requests (s.depth + 1) 0 :=
    runs_of_openedAfter (Nat.succ_pos _) s.depth_push h
  have hmany : 1 < (scopeAfter s.push requests).depth := by
    rw [hruns.depth, Scope.depth_eq]
    omega
  obtain ⟨layer, after, hpop⟩ := Scope.exists_pop? hmany
  have hpops := Scope.pops_of_pop? hpop
  have hdepth : after.depth = s.depth := by
    have hone := hpops.depth
    rw [hruns.depth] at hone
    omega
  have hbuiltins : after.builtins = s.builtins := hpops.builtins.trans hruns.builtins
  have hinside : ∀ step ∈ history s.push requests, s.depth < step.before.depth := fun step hmem =>
    (hruns.steps step hmem).1
  have haround : ∀ k < s.depth, ∀ name, after.binding? k name =
      if (history s.push requests).any (·.meets k name) then none else s.binding? k name := by
    intro k hk name
    rw [hpops.stays (hdepth ▸ hk), hruns.binding k (by omega), Scope.binding?_push]
    exact lastChange?_of_lt_depth (fun step hmem => Nat.lt_of_le_of_lt hk (hinside step hmem)) _ _
  refine ⟨layer, after, by rw [respond, hpop], ?_, hdepth, haround, ?_, ?_, ⟨hbuiltins, ?_⟩, ?_⟩
  · intro name value
    have hempty : s.binding? s.depth name = none :=
      Scope.binding?_eq_none_of_le (Nat.le_refl _) name
    rw [← lastChange?_eq_some_iff, hpops.layer, hdepth, hruns.binding _ (Nat.lt_succ_self _),
      Scope.binding?_push, hempty]
    cases lastChange? (history s.push requests) s.depth name <;> simp
  · exact fun step hmem name hdelete => forgets_of_delete hdelete (step_of_mem_history hmem)
  · exact eq_of_around hbuiltins hdepth haround
  · exact fun step hmem => (hruns.steps step hmem).2
  · rintro t (rfl | ⟨step, hmem, rfl⟩) name hunbound
    · rw [Scope.lookup?_of_unbound hunbound, hbuiltins]
    · rw [Scope.lookup?_of_unbound hunbound, (hruns.steps step hmem).2]
      rfl

/-- Of two names one is covered and forgotten where it is covered, and the other forgotten from
within a second layer. -/
theorem inner_layer_is_transparent_nested :
    ∃ (s : Scope) (requests : List Request), IsBalanced requests ∧ ∃ layer after,
      respond (scopeAfter s.push requests) .pop = ⟨[], .popped layer, after⟩ ∧
      after.binding? 0 "x" = some Binary64.one ∧ after.binding? 0 "y" = none := by
  let s := (initial.assign "x" Binary64.one).assign "y" Binary64.one
  let requests : List Request := [.assign "x" Binary64.one, .push, .delete "y", .delete "x", .pop,
    .lookup "pi", .delete "z"]
  have hbalanced : IsBalanced requests := by decide
  obtain ⟨layer, after, hpop, htransparent⟩ := inner_layer_is_transparent s requests hbalanced
  refine ⟨s, requests, hbalanced, layer, after, hpop, ?_, ?_⟩
  · rw [htransparent.around 0 (by decide)]
    decide +kernel
  · rw [htransparent.around 0 (by decide)]
    decide +kernel

end Session

end LineCalculator
