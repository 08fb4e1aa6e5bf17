import LineCalculator.Scope.Basic

/-!
# What the layers of a scope bind

The operations on a scope are written for the layer that is innermost, and most of them open or
close it.  What they do to the others is best said from the outside, where a layer keeps its
place as long as it is there: the layer with `k` layers around it has number `k`, and
`Scope.binding? s k name` is what it binds a name to.

For each operation there is one equation or one case distinction about these bindings, and
together with the constants they are all there is of a scope (`Scope.ext_binding?`).
-/

namespace LineCalculator

namespace Scope

/-- How many layers there are. -/
def depth (s : Scope) : Nat := s.layers.inwards.length

/-- What the layer with `k` layers around it binds a name to. -/
def binding? (s : Scope) (k : Nat) (name : String) : Option Binary64 :=
  s.layers.outwards[k]?.bind (·.find? name)

theorem depth_eq (s : Scope) : s.depth = s.layers.outer.length + 1 := rfl

theorem length_outwards (s : Scope) : s.layers.outwards.length = s.depth := List.length_reverse

theorem outwards_eq (s : Scope) : s.layers.outwards = s.layers.outer.reverse ++ [s.layers.inner] :=
  List.reverse_cons

theorem binding?_eq_none_of_le {s : Scope} {k : Nat} (h : s.depth ≤ k) (name : String) :
    s.binding? k name = none := by
  unfold binding?
  rw [List.getElem?_eq_none (s.length_outwards ▸ h), Option.bind_none]

/-- A scope is its constants, how many layers it has, and what these bind. -/
theorem ext_binding? {s t : Scope} (hbuiltins : s.builtins = t.builtins)
    (hdepth : s.depth = t.depth) (h : ∀ k name, s.binding? k name = t.binding? k name) : s = t := by
  have houtwards : s.layers.outwards = t.layers.outwards := by
    refine List.ext_getElem (by rw [length_outwards, length_outwards, hdepth]) fun k hs ht => ?_
    refine Layer.ext_find? fun name => ?_
    have hk := h k name
    simpa only [binding?, List.getElem?_eq_getElem hs, List.getElem?_eq_getElem ht,
      Option.bind_some] using hk
  have hinwards : s.layers.inwards = t.layers.inwards := List.reverse_inj.1 houtwards
  obtain ⟨builtins, inner, outer⟩ := s
  obtain ⟨builtins', inner', outer'⟩ := t
  obtain ⟨rfl, rfl⟩ := List.cons.inj hinwards
  cases hbuiltins
  rfl

/-! ## Looking up -/

theorem binds_eq_false_iff {layer : Layer} {name : String} :
    layer.binds name = false ↔ layer.find? name = none := by
  simp [Layer.binds]

/-- A name that no layer binds has the value of the constant. -/
theorem lookup?_of_unbound {s : Scope} {name : String} (h : ∀ k, s.binding? k name = none) :
    s.lookup? name = s.builtins.find? name := by
  have hlayers : s.layers.inwards.findSome? (·.find? name) = none := by
    refine List.findSome?_eq_none_iff.2 fun layer hlayer => ?_
    obtain ⟨k, hk, hget⟩ := List.mem_iff_getElem.1 (List.mem_reverse.2 hlayer)
    have hnone := h k
    unfold binding? at hnone
    rw [show s.layers.outwards[k]? = some layer from hget ▸ List.getElem?_eq_getElem hk] at hnone
    exact hnone
  unfold lookup?
  rw [List.findSome?_append, hlayers, Option.none_or, List.findSome?_singleton]

/-! ## Opening and closing layers -/

@[simp] theorem depth_push (s : Scope) : s.push.depth = s.depth + 1 := rfl

@[simp] theorem binding?_push (s : Scope) (k : Nat) (name : String) :
    s.push.binding? k name = s.binding? k name := by
  have hpush : s.push.layers.outwards = s.layers.outwards ++ [Layer.empty] := outwards_eq _
  unfold binding?
  rw [hpush, List.getElem?_append]
  split
  case isTrue => rfl
  case isFalse hk =>
    rw [List.getElem?_eq_none (Nat.le_of_not_lt hk), List.getElem?_singleton]
    split <;> rfl

/-- What closing a layer comes to. -/
structure Pops (s : Scope) (layer : Layer) (after : Scope) : Prop where
  builtins : after.builtins = s.builtins
  depth : s.depth = after.depth + 1
  /-- The layers that stay bind what they did. -/
  stays : ∀ {k : Nat}, k < after.depth → ∀ name, after.binding? k name = s.binding? k name
  /-- The other one was the innermost. -/
  layer : ∀ name, layer.find? name = s.binding? after.depth name

theorem pops_of_pop? {s after : Scope} {layer : Layer} (h : s.pop? = some (layer, after)) :
    s.Pops layer after := by
  obtain ⟨builtins, inner, outer⟩ := s
  cases outer with
  | nil => cases h
  | cons next outer =>
    cases h
    have houtwards : (Layers.mk inner (next :: outer)).outwards =
        (Layers.mk next outer).outwards ++ [inner] := List.reverse_cons
    refine ⟨rfl, rfl, fun {k} hk name => ?_, fun name => ?_⟩
    · rw [← length_outwards] at hk
      unfold binding?
      rw [houtwards, List.getElem?_append_left hk]
    · unfold binding?
      rw [houtwards, ← length_outwards, List.getElem?_append_right (Nat.le_refl _), Nat.sub_self]
      rfl

/-- A layer can be closed if it is not the only one. -/
theorem exists_pop? {s : Scope} (h : 1 < s.depth) :
    ∃ layer after, s.pop? = some (layer, after) := by
  obtain ⟨builtins, inner, outer⟩ := s
  cases outer with
  | nil => exact absurd h (Nat.lt_irrefl 1)
  | cons next outer => exact ⟨inner, _, rfl⟩

/-! ## Binding names -/

@[simp] theorem depth_assign (s : Scope) (name : String) (value : Binary64) :
    (s.assign name value).depth = s.depth := rfl

/-- A name is bound in the innermost layer. -/
theorem binding?_assign (s : Scope) (name : String) (value : Binary64) (k : Nat) (other : String) :
    (s.assign name value).binding? k other =
      if s.depth = k + 1 ∧ name = other then some value else s.binding? k other := by
  unfold binding?
  rw [outwards_eq, outwards_eq, outer_assign, depth_eq, List.getElem?_append,
    List.getElem?_append, List.length_reverse]
  split
  case isTrue hk =>
    rw [if_neg (by omega)]
  case isFalse hk =>
    rw [List.getElem?_singleton, List.getElem?_singleton]
    split
    case isTrue hzero =>
      have hinner : s.layers.outer.length = k := by omega
      simp [assign, hinner, eq_comm]
    case isFalse hzero =>
      rw [if_neg (by omega)]

/-! ## Forgetting names -/

theorem eraseFirst?_eq_none {name : String} {layers : List Layer}
    (h : eraseFirst? name layers = none) : ∀ layer ∈ layers, layer.find? name = none := by
  induction layers with
  | nil => simp
  | cons first rest ih =>
    unfold eraseFirst? at h
    split at h
    · cases h
    · rename_i hfirst
      have hrest := ih (Option.map_eq_none_iff.1 h)
      exact List.forall_mem_cons.2 ⟨binds_eq_false_iff.1 (by simpa using hfirst), hrest⟩

/-- The first layer that binds a name loses it. -/
theorem eraseFirst?_eq_some {name : String} {layers after : List Layer}
    (h : eraseFirst? name layers = some after) :
    ∃ above layer below, layers = above ++ layer :: below ∧
      after = above ++ layer.erase name :: below ∧ layer.find? name ≠ none ∧
      ∀ other ∈ above, other.find? name = none := by
  induction layers generalizing after with
  | nil => cases h
  | cons first rest ih =>
    unfold eraseFirst? at h
    split at h
    · rename_i hfirst
      cases h
      exact ⟨[], first, rest, rfl, rfl, Option.isSome_iff_ne_none.1 hfirst, by simp⟩
    · rename_i hfirst
      obtain ⟨after', hrest, rfl⟩ := Option.map_eq_some_iff.1 h
      obtain ⟨above, layer, below, rfl, rfl, hlayer, habove⟩ := ih hrest
      refine ⟨first :: above, layer, below, rfl, rfl, hlayer, ?_⟩
      exact List.forall_mem_cons.2 ⟨binds_eq_false_iff.1 (by simpa using hfirst), habove⟩

theorem map_delete? (s : Scope) (name : String) :
    (s.delete? name).map (fun after => (after.builtins, after.layers.inwards)) =
      (eraseFirst? name s.layers.inwards).map fun layers => (s.builtins, layers) := by
  unfold delete? Layers.inwards
  rw [eraseFirst?]
  split
  · rfl
  · cases eraseFirst? name s.layers.outer <;> rfl

/-- A name that cannot be forgotten is bound in no layer. -/
theorem binding?_of_delete?_eq_none {s : Scope} {name : String} (h : s.delete? name = none)
    (k : Nat) : s.binding? k name = none := by
  have hnone : eraseFirst? name s.layers.inwards = none := by
    have hmap := s.map_delete? name
    rw [h] at hmap
    exact Option.map_eq_none_iff.1 hmap.symm
  unfold binding?
  refine Option.bind_eq_none_iff.2 fun layer hlayer => ?_
  exact eraseFirst?_eq_none hnone layer (List.mem_reverse.1 (List.mem_of_getElem? hlayer))

/-- What forgetting a name comes to: the innermost of its bindings is gone. -/
structure Forgets (s : Scope) (name : String) (after : Scope) (k : Nat) : Prop where
  builtins : after.builtins = s.builtins
  depth : after.depth = s.depth
  bound : s.binding? k name ≠ none
  innermost : ∀ {j : Nat}, k < j → s.binding? j name = none
  binding : ∀ j other, after.binding? j other =
    if j = k ∧ other = name then none else s.binding? j other

theorem exists_forgets_of_delete? {s after : Scope} {name : String}
    (h : s.delete? name = some after) : ∃ k, s.Forgets name after k := by
  obtain ⟨layers, hlayers, hpair⟩ : ∃ layers, eraseFirst? name s.layers.inwards = some layers ∧
      (s.builtins, layers) = (after.builtins, after.layers.inwards) := by
    have hmap := s.map_delete? name
    rw [h] at hmap
    exact Option.map_eq_some_iff.1 hmap.symm
  obtain ⟨hbuiltins, rfl⟩ := Prod.mk.inj hpair
  obtain ⟨above, layer, below, hsplit, hafter, hlayer, habove⟩ := eraseFirst?_eq_some hlayers
  have houtwards : s.layers.outwards = below.reverse ++ layer :: above.reverse := by
    simp [Layers.outwards, hsplit]
  have houtwards' : after.layers.outwards = below.reverse ++ layer.erase name :: above.reverse := by
    simp [Layers.outwards, hafter]
  refine ⟨below.length, hbuiltins.symm, ?_, ?_, fun {j} hj => ?_, fun j other => ?_⟩
  · unfold depth
    rw [hsplit, hafter]
    simp
  · unfold binding?
    rw [houtwards, List.getElem?_append_right (by simp)]
    simpa using hlayer
  · unfold binding?
    rw [houtwards, List.getElem?_append_right (by simpa using Nat.le_of_lt hj)]
    obtain ⟨m, rfl⟩ := Nat.exists_eq_add_of_lt hj
    refine Option.bind_eq_none_iff.2 fun other hother => habove other ?_
    rw [List.length_reverse, show below.length + m + 1 - below.length = m + 1 by omega,
      List.getElem?_cons_succ] at hother
    exact List.mem_reverse.1 (List.mem_of_getElem? hother)
  · unfold binding?
    rw [houtwards, houtwards', List.getElem?_append, List.getElem?_append, List.length_reverse]
    split
    case isTrue hj => rw [if_neg (by omega)]
    case isFalse hj =>
      cases hm : j - below.length with
      | zero =>
        have hj' : j = below.length := by omega
        simp [hj']
      | succ m => rw [if_neg (by omega), List.getElem?_cons_succ, List.getElem?_cons_succ]

end Scope

end LineCalculator
