import LineCalculator.Proofs.Scanning.Faultless

/-!
# Tokens laid out with blanks

A text may be a token and nothing besides (`Head.IsWhole`).  Such texts, one after the other
with blanks between any two of them, are scanned as the tokens that they are, without a
fault (`Scanner.pieces_of_laidOut`).

This is so because texts may be put together at blanks (`ScansAs.append`).  Which tokens stand
side by side does not matter, nor whether they could be told apart without the blanks.
-/

namespace LineCalculator

/-! ## Texts that are a token -/

namespace Head

/-- A text is read as a token, and nothing is left of it. -/
def IsWhole (text : List Char) (u : Unplaced) : Prop :=
  ∃ c tail, text = c :: tail ∧ isSkipped c = false ∧
    (read c tail).content = .token u.kind u.form u.lexeme ∧ (read c tail).rest = []

end Head

theorem ScansAs.of_isWhole {text : List Char} {u : Unplaced} (h : Head.IsWhole text u) :
    ScansAs [u] text := by
  obtain ⟨c, tail, rfl, hskip, hcontent, hrest⟩ := h
  have hlater : ScansAs [] (Head.read c tail).rest := hrest.symm ▸ .blanks (by simp)
  rw [← List.nil_append (c :: tail)]
  exact .token (by simp) hskip hcontent hlater

/-- Some texts that are tokens, one after the other, with blanks between any two of them and
perhaps around them. -/
inductive LaidOut : List Unplaced → List Char → Prop
  | blanks {text : List Char} (blank : ∀ c ∈ text, Head.isSkipped c = true) : LaidOut [] text
  | token {u : Unplaced} {us : List Unplaced} {gap text more : List Char}
      (blank : ∀ c ∈ gap, Head.isSkipped c = true) (whole : Head.IsWhole text u)
      (apart : ∀ c ∈ more.head?, Head.isSkipped c = true) (later : LaidOut us more) :
      LaidOut (u :: us) (gap ++ (text ++ more))

/-- Tokens laid out with blanks are what the text is scanned as. -/
theorem LaidOut.scansAs {us : List Unplaced} {text : List Char} (h : LaidOut us text) :
    ScansAs us text := by
  induction h with
  | blanks blank => exact .blanks blank
  | token blank whole apart _ ih =>
    exact ((ScansAs.of_isWhole whole).append ih apart).blanks_append blank

/-- **Tokens laid out with blanks are what is scanned.** -/
theorem Scanner.pieces_of_laidOut {us : List Unplaced} {s : Scanner} (h : LaidOut us s.rest) :
    (tokensOf s.pieces).map Token.unplaced = us ∧ faultsOf s.pieces = [] :=
  pieces_of_scansAs h.scansAs

end LineCalculator
