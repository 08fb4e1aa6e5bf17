/-!
# A supply with items handed back

A supply yields its items one after the other.  Whoever draws an item and finds
it is not the one wanted may hand it back, as often as it likes; what was handed
back last is drawn first, and all of it before the supply goes on.
-/

namespace LineCalculator

/-- A supply of items. -/
structure Lookahead (α : Type) where
  /-- The items handed back, the next one to draw first. -/
  returned : List α
  /-- The items not drawn yet. -/
  coming : List α

namespace Lookahead

variable {α : Type}

/-- A supply of which nothing has been drawn. -/
def ofList (items : List α) : Lookahead α := ⟨[], items⟩

/-- The items in the order in which they will be drawn. -/
def toList (supply : Lookahead α) : List α := supply.returned ++ supply.coming

/-- Draws an item, if there is one, and leaves the rest. -/
def pop (supply : Lookahead α) : Option α × Lookahead α :=
  match supply.returned, supply.coming with
  | item :: returned, coming => (some item, ⟨returned, coming⟩)
  | [], item :: coming => (some item, ⟨[], coming⟩)
  | [], [] => (none, supply)

/-- Hands an item back. -/
def push (supply : Lookahead α) (item : α) : Lookahead α :=
  ⟨item :: supply.returned, supply.coming⟩

@[simp] theorem toList_ofList (items : List α) : (ofList items).toList = items := rfl

@[simp] theorem toList_push (supply : Lookahead α) (item : α) :
    (supply.push item).toList = item :: supply.toList := rfl

/-- Drawing takes the head of the list that a supply stands for. -/
theorem fst_pop (supply : Lookahead α) : supply.pop.1 = supply.toList.head? := by
  obtain ⟨returned, coming⟩ := supply
  cases returned <;> cases coming <;> rfl

/-- Drawing leaves the tail of the list that a supply stands for. -/
theorem toList_snd_pop (supply : Lookahead α) : supply.pop.2.toList = supply.toList.tail := by
  obtain ⟨returned, coming⟩ := supply
  cases returned <;> cases coming <;> rfl

end Lookahead

end LineCalculator
