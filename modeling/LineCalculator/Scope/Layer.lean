import LineCalculator.Binary64.Basic

/-!
# Layers of variables

A layer binds finitely many names, each to one number.  It is kept as the list
of its bindings in the order of their names, and that the order is strict is
part of the type.  So a layer has exactly one representation: two layers that
bind the same names to the same numbers are equal, and the list is at the same
time what a listing of the layer shows.

Names are ordered by their code points.
-/

namespace LineCalculator

/-- A name and the number bound to it. -/
abbrev Binding := String × Binary64

/-- A finite binding of names. -/
structure Layer where
  /-- The bindings. -/
  bindings : List Binding
  /-- The names are in ascending order, and no two are the same. -/
  ascending : bindings.Pairwise fun a b => a.1 < b.1
  deriving DecidableEq

namespace Layer

/-! ### Lists of bindings -/

/-- Puts a binding in its place, over one of the same name. -/
def insertInto (name : String) (value : Binary64) : List Binding → List Binding
  | [] => [(name, value)]
  | b :: rest =>
    if name < b.1 then (name, value) :: b :: rest
    else if name = b.1 then (name, value) :: rest
    else b :: insertInto name value rest

theorem mem_insertInto {name : String} {value : Binary64} {b : Binding} {l : List Binding}
    (h : b ∈ insertInto name value l) : b = (name, value) ∨ b ∈ l := by
  induction l with
  | nil => simpa [insertInto] using h
  | cons a rest ih =>
    unfold insertInto at h
    split at h
    · simpa using h
    · split at h
      · rcases List.mem_cons.1 h with h | h
        · exact Or.inl h
        · exact Or.inr (List.mem_cons_of_mem _ h)
      · rcases List.mem_cons.1 h with h | h
        · exact Or.inr (h ▸ List.mem_cons_self)
        · rcases ih h with h | h
          · exact Or.inl h
          · exact Or.inr (List.mem_cons_of_mem _ h)

theorem pairwise_insertInto (name : String) (value : Binary64) {l : List Binding}
    (h : l.Pairwise fun a b => a.1 < b.1) :
    (insertInto name value l).Pairwise fun a b => a.1 < b.1 := by
  induction l with
  | nil => simp [insertInto]
  | cons a rest ih =>
    obtain ⟨ha, hrest⟩ := List.pairwise_cons.1 h
    unfold insertInto
    split
    · rename_i hlt
      refine List.pairwise_cons.2 ⟨fun b hb => ?_, h⟩
      rcases List.mem_cons.1 hb with rfl | hb
      · exact hlt
      · exact String.lt_trans hlt (ha b hb)
    · split
      · rename_i heq
        exact List.pairwise_cons.2 ⟨fun b hb => heq ▸ ha b hb, hrest⟩
      · rename_i hlt heq
        refine List.pairwise_cons.2 ⟨fun b hb => ?_, ih hrest⟩
        rcases mem_insertInto hb with rfl | hb
        · grind
        · exact ha b hb

/-! ### The operations -/

/-- The layer that binds nothing. -/
def empty : Layer := ⟨[], List.Pairwise.nil⟩

/-- The number bound to a name. -/
def find? (layer : Layer) (name : String) : Option Binary64 := layer.bindings.lookup name

/-- Whether a name is bound. -/
def binds (layer : Layer) (name : String) : Bool := (layer.find? name).isSome

/-- Binds a name, in place of what it was bound to. -/
def insert (layer : Layer) (name : String) (value : Binary64) : Layer :=
  ⟨insertInto name value layer.bindings, pairwise_insertInto name value layer.ascending⟩

/-- Removes the binding of a name, if it has one. -/
def erase (layer : Layer) (name : String) : Layer :=
  ⟨layer.bindings.filter (·.1 != name), layer.ascending.filter _⟩

/-- The layer of some bindings, later ones in place of earlier ones of the same
name. -/
def ofList (bindings : List Binding) : Layer :=
  bindings.foldl (fun layer b => layer.insert b.1 b.2) empty

/-! ### Looking up what an operation leaves -/

@[simp] theorem find?_empty (name : String) : empty.find? name = none := rfl

theorem lookup_cons_eq (b : Binding) (l : List Binding) (name : String) :
    (b :: l).lookup name = if name = b.1 then some b.2 else l.lookup name := by
  obtain ⟨n, v⟩ := b
  by_cases h : name = n
  · simp [h]
  · simp [List.lookup_cons, h, beq_eq_false_iff_ne.2 h]

theorem lookup_insertInto (name : String) (value : Binary64) (l : List Binding) (other : String) :
    (insertInto name value l).lookup other =
      if other = name then some value else l.lookup other := by
  induction l with
  | nil => simp [insertInto, lookup_cons_eq]
  | cons b rest ih => grind [insertInto, lookup_cons_eq]

@[simp] theorem find?_insert (layer : Layer) (name : String) (value : Binary64) (other : String) :
    (layer.insert name value).find? other =
      if other = name then some value else layer.find? other :=
  lookup_insertInto name value layer.bindings other

theorem lookup_filter_ne (name : String) (l : List Binding) (other : String) :
    (l.filter (·.1 != name)).lookup other = if other = name then none else l.lookup other := by
  induction l with
  | nil => simp
  | cons b rest ih => grind [lookup_cons_eq]

@[simp] theorem find?_erase (layer : Layer) (name other : String) :
    (layer.erase name).find? other = if other = name then none else layer.find? other :=
  lookup_filter_ne name layer.bindings other

/-! ### One representation -/

/-- A name below all the names of a list is not bound in it. -/
theorem lookup_eq_none_of_lt {name : String} {l : List Binding} (h : ∀ b ∈ l, name < b.1) :
    l.lookup name = none := by
  induction l with
  | nil => rfl
  | cons b rest ih =>
    have hb := h b List.mem_cons_self
    have hne : name ≠ b.1 := fun he => String.lt_irrefl _ (he ▸ hb)
    rw [lookup_cons_eq, if_neg hne]
    exact ih fun c hc => h c (List.mem_cons_of_mem _ hc)

theorem eq_of_lookup_eq {l m : List Binding} (hl : l.Pairwise fun a b => a.1 < b.1)
    (hm : m.Pairwise fun a b => a.1 < b.1) (h : ∀ name, l.lookup name = m.lookup name) :
    l = m := by
  induction l generalizing m with
  | nil =>
    cases m with
    | nil => rfl
    | cons b rest =>
      have hb := h b.1
      rw [lookup_cons_eq, if_pos rfl] at hb
      exact absurd hb (by simp)
  | cons a l ih =>
    obtain ⟨ha, hl⟩ := List.pairwise_cons.1 hl
    cases m with
    | nil =>
      have hb := h a.1
      rw [lookup_cons_eq, if_pos rfl] at hb
      exact absurd hb (by simp)
    | cons b m =>
      obtain ⟨hb, hm⟩ := List.pairwise_cons.1 hm
      have hname : a.1 = b.1 := by
        have h1 := h a.1
        have h2 := h b.1
        rw [lookup_cons_eq, if_pos rfl, lookup_cons_eq] at h1
        rw [lookup_cons_eq, lookup_cons_eq, if_pos rfl] at h2
        by_cases hab : a.1 = b.1
        · exact hab
        · rw [if_neg hab] at h1
          rw [if_neg (Ne.symm hab)] at h2
          by_cases hlt : a.1 < b.1
          · have hnone := lookup_eq_none_of_lt fun c hc => String.lt_trans hlt (hb c hc)
            rw [hnone] at h1
            exact absurd h1 (by simp)
          · have hgt : b.1 < a.1 := by
              rcases Decidable.em (b.1 < a.1) with hgt | hgt
              · exact hgt
              · exact absurd (String.le_antisymm (String.not_lt.1 hgt) (String.not_lt.1 hlt)) hab
            have hnone := lookup_eq_none_of_lt fun c hc => String.lt_trans hgt (ha c hc)
            rw [hnone] at h2
            exact absurd h2 (by simp)
      have hvalue : a.2 = b.2 := by
        have h1 := h a.1
        rw [lookup_cons_eq, if_pos rfl, lookup_cons_eq, if_pos hname] at h1
        exact Option.some.inj h1
      have hrest : l = m := by
        refine ih hl hm fun name => ?_
        have hn := h name
        rw [lookup_cons_eq, lookup_cons_eq, ← hname] at hn
        by_cases he : name = a.1
        · rw [he, lookup_eq_none_of_lt ha, hname, lookup_eq_none_of_lt hb]
        · rwa [if_neg he, if_neg he] at hn
      rw [Prod.ext hname hvalue, hrest]

/-- Layers that bind the same names to the same numbers are equal. -/
theorem ext_find? {a b : Layer} (h : ∀ name, a.find? name = b.find? name) : a = b := by
  obtain ⟨l, hl⟩ := a
  obtain ⟨m, hm⟩ := b
  have hlm : l = m := eq_of_lookup_eq hl hm h
  subst hlm
  rfl

end Layer

end LineCalculator
