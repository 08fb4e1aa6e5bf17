import LineCalculator.Proofs.Reading.Account

/-!
# Dropped segments

What is left of some tokens when stretches of them are dropped.  A stretch is dropped
where an operator was read and its right operand was not: it goes from the operator to
the token that the operand failed at, or to the end of input if it failed there.

`Thinned taken kept segments` only splits the tokens, in order and without overlap, into
tokens kept and segments dropped.  `Thins` says besides that the segments are of this
kind and that there are some exactly if something has been reported.
-/

namespace LineCalculator

/-! ## Splitting tokens -/

/-- Some tokens are kept and the others dropped in segments, all in their order. -/
inductive Thinned : List Token → List Token → List (List Token) → Prop
  | nil : Thinned [] [] []
  | keep (t : Token) {taken kept : List Token} {segments : List (List Token)}
      (h : Thinned taken kept segments) : Thinned (t :: taken) (t :: kept) segments
  | drop (segment : List Token) {taken kept : List Token} {segments : List (List Token)}
      (h : Thinned taken kept segments) : Thinned (segment ++ taken) kept (segment :: segments)

namespace Thinned

variable {taken taken' kept kept' : List Token} {segments segments' : List (List Token)}

theorem append (h : Thinned taken kept segments) (h' : Thinned taken' kept' segments') :
    Thinned (taken ++ taken') (kept ++ kept') (segments ++ segments') := by
  induction h with
  | nil => exact h'
  | keep t h ih => exact .keep t ih
  | drop segment h ih =>
    rw [List.append_assoc]
    exact .drop segment ih

theorem keepAll (taken : List Token) : Thinned taken taken [] := by
  induction taken with
  | nil => exact .nil
  | cons t taken ih => exact .keep t ih

/-- Where nothing is dropped everything is kept. -/
theorem eq_of_nil (h : Thinned taken kept segments) (hnil : segments = []) : kept = taken := by
  induction h with
  | nil => rfl
  | keep t h ih => rw [ih hnil]
  | drop segment h ih => exact absurd hnil (by simp)

/-- What is kept stands among the tokens in its order. -/
theorem sublist (h : Thinned taken kept segments) : kept.Sublist taken := by
  induction h with
  | nil => exact List.Sublist.refl []
  | keep t h ih => exact ih.cons_cons t
  | drop segment h ih => exact ih.trans (List.sublist_append_right segment _)

end Thinned

/-! ## Segments with a reason -/

/-- The last of some tokens is cited by a report, or the end of input is reported. -/
def EndsReported (reports : List Diagnostic) (taken : List Token) : Prop :=
  (∃ t ∈ taken.getLast?, ∃ d ∈ reports, d.cited? = some t) ∨ .parse .endOfInput ∈ reports

theorem EndsReported.ne_nil {reports : List Diagnostic} {taken : List Token}
    (h : EndsReported reports taken) : reports ≠ [] := by
  rcases h with ⟨t, -, d, hd, -⟩ | hend
  · exact List.ne_nil_of_mem hd
  · exact List.ne_nil_of_mem hend

theorem EndsReported.append_left {reports : List Diagnostic} {taken : List Token}
    (h : EndsReported reports taken) (reports' : List Diagnostic) (taken' : List Token) :
    EndsReported (reports' ++ reports) (taken' ++ taken) := by
  rcases h with ⟨t, ht, d, hd, hcited⟩ | hend
  · refine Or.inl ⟨t, ?_, d, List.mem_append_right _ hd, hcited⟩
    rw [Option.mem_def, List.getLast?_append, Option.mem_def.1 ht]
    rfl
  · exact Or.inr (List.mem_append_right _ hend)

/-- A segment that was dropped from some tokens: an operator and what stood in the place
of its right operand, up to the token that a report cites, or up to the end of input. -/
structure Dropped (reports : List Diagnostic) (taken segment : List Token) : Prop where
  operator : ∃ t ∈ segment.head?, ∃ op, t.kind = .operator op
  reported : (∃ t ∈ segment.getLast?, ∃ d ∈ reports, d.cited? = some t) ∨
    (.parse .endOfInput ∈ reports ∧ segment <:+ taken)

/-- Some tokens are kept and the others were dropped, with the reports of the reading. -/
def Thins (reports : List Diagnostic) (taken kept : List Token) : Prop :=
  ∃ segments, Thinned taken kept segments ∧
    (∀ segment ∈ segments, Dropped reports taken segment) ∧ (segments = [] ↔ reports = [])

namespace Thins

variable {reports reports' : List Diagnostic} {taken taken' kept kept' : List Token}

theorem nil : Thins [] [] [] := ⟨[], .nil, by simp, by simp⟩

theorem single (t : Token) : Thins [] [t] [t] := ⟨[], .keep t .nil, by simp, by simp⟩

/-- An operator is dropped with all that was taken for its right operand. -/
theorem drop {t : Token} {op : BinaryOp} (ht : t.kind = .operator op)
    (h : EndsReported reports taken) : Thins reports (t :: taken) [] := by
  refine ⟨[t :: taken], ?_, ?_, by simpa using h.ne_nil⟩
  · have hdrop := Thinned.drop (t :: taken) .nil
    rwa [List.append_nil] at hdrop
  · intro segment hsegment
    obtain rfl := List.mem_singleton.1 hsegment
    refine ⟨⟨t, rfl, op, ht⟩, ?_⟩
    rcases h with ⟨u, hu, d, hd, hcited⟩ | hend
    · refine Or.inl ⟨u, ?_, d, hd, hcited⟩
      rw [Option.mem_def, List.getLast?_cons, Option.mem_def.1 hu]
      rfl
    · exact Or.inr ⟨hend, List.suffix_refl _⟩

/-- Behind the end of input nothing is taken, so that what was dropped up to there still
ends the tokens. -/
theorem append (h : Thins reports taken kept) (h' : Thins reports' taken' kept')
    (hend : .parse .endOfInput ∈ reports → taken' = []) :
    Thins (reports ++ reports') (taken ++ taken') (kept ++ kept') := by
  obtain ⟨segments, hthinned, hdropped, hnone⟩ := h
  obtain ⟨segments', hthinned', hdropped', hnone'⟩ := h'
  refine ⟨segments ++ segments', hthinned.append hthinned', ?_, ?_⟩
  · intro segment hsegment
    rcases List.mem_append.1 hsegment with hmem | hmem
    · obtain ⟨hoperator, hreported⟩ := hdropped segment hmem
      refine ⟨hoperator, hreported.imp ?_ ?_⟩
      · rintro ⟨t, ht, d, hd, hcited⟩
        exact ⟨t, ht, d, List.mem_append_left _ hd, hcited⟩
      · rintro ⟨hreport, hsuffix⟩
        rw [hend hreport, List.append_nil]
        exact ⟨List.mem_append_left _ hreport, hsuffix⟩
    · obtain ⟨hoperator, hreported⟩ := hdropped' segment hmem
      refine ⟨hoperator, hreported.imp ?_ ?_⟩
      · rintro ⟨t, ht, d, hd, hcited⟩
        exact ⟨t, ht, d, List.mem_append_right _ hd, hcited⟩
      · rintro ⟨hreport, hsuffix⟩
        exact ⟨List.mem_append_right _ hreport, hsuffix.trans (List.suffix_append taken taken')⟩
  · rw [List.append_eq_nil_iff, List.append_eq_nil_iff, hnone, hnone']

end Thins

end LineCalculator
