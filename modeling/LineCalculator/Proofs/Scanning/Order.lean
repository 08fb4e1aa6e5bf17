import LineCalculator.Proofs.Scanning.Pieces

/-!
# Tokens stand one after the other

A scanner goes through its source from left to right, and every token it yields covers
at least one character.  So no two tokens begin at the same place, and tokens that are
equal are one token (`pairwise_position_iterate`).

The tokens before the first fault of a text are those that can be read from it
(`soundTokens_eq`).
-/

namespace LineCalculator

namespace Position

/-- One place comes before another. -/
def Before (p q : Position) : Prop := p.line < q.line ∨ p.line = q.line ∧ p.column < q.column

theorem Before.trans {p q r : Position} (h : p.Before q) (h' : q.Before r) : p.Before r := by
  unfold Before at *
  omega

theorem Before.ne {p q : Position} (h : p.Before q) : p ≠ q := by
  rintro rfl
  unfold Before at h
  omega

theorem before_next (p : Position) (c : Char) : p.Before (p.next c) := by
  unfold next
  split
  case isTrue => exact Or.inl (Nat.lt_succ_self _)
  case isFalse => exact Or.inr ⟨rfl, Nat.lt_succ_self _⟩

theorem eq_or_before_advance (p : Position) (text : List Char) :
    p.advance text = p ∨ p.Before (p.advance text) := by
  induction text generalizing p with
  | nil => exact Or.inl rfl
  | cons c text ih =>
    right
    rw [advance_cons]
    rcases ih (p.next c) with heq | hbefore
    · rw [heq]
      exact p.before_next c
    · exact (p.before_next c).trans hbefore

theorem before_advance (p : Position) {text : List Char} (h : text ≠ []) :
    p.Before (p.advance text) := by
  cases text with
  | nil => exact absurd rfl h
  | cons c text =>
    rw [advance_cons]
    rcases (p.next c).eq_or_before_advance text with heq | hbefore
    · rw [heq]
      exact p.before_next c
    · exact (p.before_next c).trans hbefore

end Position

namespace Scanner

/-- A token begins where the scanner stands or later, and the scanner goes on behind
it. -/
theorem position_of_token {s next : Scanner} {t : Token} (h : s.scan = (.token t, next)) :
    t.position = s.first ∧ t.position.Before next.position := by
  unfold scan at h
  dsimp only at h
  split at h
  · cases h
  · split at h
    · cases h
      exact ⟨rfl, Position.before_advance _ (Head.span_ne_nil _ _)⟩
    · cases h

/-- **Tokens begin one after the other.** -/
theorem pairwise_position_iterate (s : Scanner) :
    (∀ t ∈ s.iterate.1, t.position = s.position ∨ s.position.Before t.position) ∧
      s.iterate.1.Pairwise fun t u => t.position.Before u.position := by
  induction s using iterate.induct with
  | case1 s t next hscan ih =>
    obtain ⟨hfrom, hpairwise⟩ := ih
    obtain ⟨hfirst, hnext⟩ := position_of_token hscan
    have hstart : t.position = s.position ∨ s.position.Before t.position := by
      rw [hfirst]
      exact s.position.eq_or_before_advance _
    have hlater : ∀ u ∈ next.iterate.1, t.position.Before u.position := by
      intro u hu
      rcases hfrom u hu with heq | hbefore
      · rw [heq]
        exact hnext
      · exact hnext.trans hbefore
    rw [iterate_of_token hscan]
    refine ⟨fun u hu => ?_, hpairwise.cons hlater⟩
    rcases List.mem_cons.1 hu with rfl | hu
    · exact hstart
    · right
      rcases hstart with heq | hbefore
      · exact heq ▸ hlater u hu
      · exact hbefore.trans (hlater u hu)
  | case2 s f next hscan =>
    rw [iterate_of_fault hscan]
    exact ⟨by simp, .nil⟩
  | case3 s next hscan =>
    rw [iterate_of_finished hscan]
    exact ⟨by simp, .nil⟩

theorem nodup_iterate (s : Scanner) : s.iterate.1.Nodup :=
  s.pairwise_position_iterate.2.imp fun hbefore heq => hbefore.ne (congrArg Token.position heq)

end Scanner

/-! ## The tokens before the first fault -/

/-- The tokens of a text before its first fault. -/
def soundTokens (text : String) : List Token :=
  ((Scanner.ofText text).pieces.takeWhile (·.isOk)).filterMap (·.toOption)

theorem soundTokens_eq (text : String) : soundTokens text = (Scanner.ofText text).iterate.1 := by
  obtain ⟨later, hlater⟩ := (Scanner.ofText text).pieces_eq
  have htokens : ∀ ts : List Token,
      (ts.map (Except.ok (ε := ScanFault))).filterMap (·.toOption) = ts := by
    intro ts
    rw [List.filterMap_map]
    exact List.filterMap_some
  unfold soundTokens
  rw [hlater, List.takeWhile_append_of_pos (by simp [Except.isOk, Except.toBool])]
  cases (Scanner.ofText text).iterate.2.1 with
  | none => simpa using htokens _
  | some f => simpa [Except.isOk, Except.toBool] using htokens _

theorem soundTokens_prefix_tokenize (text : String) : soundTokens text <+: tokenize text := by
  obtain ⟨later, hlater⟩ := (Scanner.ofText text).pieces_eq
  rw [soundTokens_eq, tokenize_eq_tokensOf, hlater, tokensOf_append, tokensOf_map_ok]
  exact List.prefix_append _ _

end LineCalculator
