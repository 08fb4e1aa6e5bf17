import LineCalculator.Scope.Layer

/-!
# Scopes

A scope is a stack of layers on top of one that nothing changes, the built-in
constants.  A name has the value that the innermost layer binding it gives it,
and the constants are asked last.  Bindings are made in the innermost layer
only, so a name of an outer layer is covered and not overwritten.  A name is
forgotten in the innermost layer that binds it, whichever that is.

There is always an innermost layer: it is a field of its own, apart from the
list of the layers around it.
-/

namespace LineCalculator

/-- The layers of a scope that can change. -/
structure Layers where
  /-- The layer in which names are bound. -/
  inner : Layer
  /-- The layers around it, from the inside outwards. -/
  outer : List Layer
  deriving DecidableEq

/-- The variables that expressions see. -/
structure Scope where
  /-- The constants. -/
  builtins : Layer
  /-- The variables. -/
  layers : Layers
  deriving DecidableEq

namespace Layers

/-- One layer that binds nothing. -/
def initial : Layers := ⟨Layer.empty, []⟩

/-- All layers, from the inside outwards. -/
def inwards (l : Layers) : List Layer := l.inner :: l.outer

/-- All layers, from the outside inwards. -/
def outwards (l : Layers) : List Layer := l.inwards.reverse

end Layers

namespace Scope

/-- A scope of constants and no variables. -/
def ofBuiltins (builtins : Layer) : Scope := ⟨builtins, Layers.initial⟩

/-- The value of a name. -/
def lookup? (s : Scope) (name : String) : Option Binary64 :=
  (s.layers.inwards ++ [s.builtins]).findSome? (·.find? name)

/-- Binds a name in the innermost layer. -/
def assign (s : Scope) (name : String) (value : Binary64) : Scope :=
  { s with layers := { s.layers with inner := s.layers.inner.insert name value } }

/-- Removes a name from the first of some layers that binds it, if there is
one. -/
def eraseFirst? (name : String) : List Layer → Option (List Layer)
  | [] => none
  | layer :: rest =>
    if layer.binds name then some (layer.erase name :: rest)
    else (eraseFirst? name rest).map (layer :: ·)

/-- Forgets a variable, if a layer binds it. -/
def delete? (s : Scope) (name : String) : Option Scope :=
  if s.layers.inner.binds name then
    some { s with layers := { s.layers with inner := s.layers.inner.erase name } }
  else
    (eraseFirst? name s.layers.outer).map fun outer =>
      { s with layers := { s.layers with outer := outer } }

/-- Opens a layer inside the others. -/
def push (s : Scope) : Scope :=
  { s with layers := ⟨Layer.empty, s.layers.inwards⟩ }

/-- Closes the innermost layer and yields it, unless it is the only one. -/
def pop? (s : Scope) : Option (Layer × Scope) :=
  match s.layers.outer with
  | [] => none
  | next :: outer => some (s.layers.inner, { s with layers := ⟨next, outer⟩ })

/-- The layers as they are now. -/
def snapshot (s : Scope) : Layers := s.layers

/-- The scope with its layers as they were. -/
def restore (s : Scope) (saved : Layers) : Scope := { s with layers := saved }

@[simp] theorem builtins_assign (s : Scope) (name : String) (value : Binary64) :
    (s.assign name value).builtins = s.builtins := rfl

@[simp] theorem outer_assign (s : Scope) (name : String) (value : Binary64) :
    (s.assign name value).layers.outer = s.layers.outer := rfl

/-- A binding is seen by every later look-up of its name and by no other. -/
theorem lookup?_assign (s : Scope) (name : String) (value : Binary64) (other : String) :
    (s.assign name value).lookup? other = if other = name then some value else s.lookup? other := by
  by_cases h : other = name <;> simp [lookup?, assign, Layers.inwards, List.findSome?_cons, h]

end Scope

end LineCalculator
