import LineCalculator.Proofs.Scanning.Steps
import LineCalculator.Proofs.Scanning.Words

/-!
# Scanning undoes rendering

Write down tokens one after the other, each in any of its spellings, with blanks between
any two of them and perhaps blanks before the first and behind the last: the text is
scanned as these tokens, without a fault (`scanning_undoes_rendering`).  Nothing else than
tokens that can be written down in this way is ever yielded.

## Two things to see

A spelling of a token, read with nothing behind it, is that token, and nothing is left of
it (`Head.isWhole_of_spelling`).  This is where a number has to be looked at: no digit of a
number without a mark is mistaken for a mark, and underscores and the point belong to the
number wherever they stand.

And tokens that are read as a whole are read one after the other where blanks stand between
them (`Scanner.pieces_of_laidOut`), so that a rendering has only to be seen to be laid out
with blanks (`Spelled.laidOut_render`).
-/

namespace LineCalculator

namespace Head

/-! ## Spellings are read as a whole -/

/-- All characters are digits, underscores and as many points as are allowed: all of them
belong to the number. -/
theorem splitDigits_eq_self {form : NumberForm} {pointAllowed : Bool} {body : List Char}
    (hbody : ∀ c ∈ body, c = '_' ∨ isDigitOf form c = true ∨ c = '.')
    (hcount : body.count '.' ≤ pointAllowed.toNat) :
    splitDigits form pointAllowed body = (body, []) := by
  induction body generalizing pointAllowed with
  | nil => rfl
  | cons c body ih =>
    have hlater := fun d hd => hbody d (List.mem_cons_of_mem c hd)
    unfold splitDigits
    by_cases hc : (c == '_' || isDigitOf form c) = true
    · have hpoint : c ≠ '.' := by
        rintro rfl
        simp [isDigitOf_point] at hc
      rw [List.count_cons_of_ne hpoint] at hcount
      rw [if_pos hc, ih hlater hcount]
    · have hpoint : c = '.' := by
        have hcases := hbody c List.mem_cons_self
        simp only [Bool.or_eq_true, beq_iff_eq, not_or] at hc
        exact (hcases.resolve_left hc.1).resolve_left hc.2
      subst hpoint
      rw [List.count_cons_self] at hcount
      cases pointAllowed with
      | false => simp at hcount
      | true =>
        have hnone : body.count '.' ≤ false.toNat := by simpa using hcount
        rw [if_neg hc, if_pos (by simp), ih hlater hnone]

/-- Behind a character of a number without a mark there stands no letter that makes a
mark. -/
theorem splitMark_of_digits {body : List Char}
    (hbody : ∀ c ∈ body, c = '_' ∨ isDigitOf .bare c = true ∨ c = '.') :
    splitMark body = (.bare, body) := by
  have hletter : ∀ c ∈ body, c ≠ 'b' ∧ c ≠ 'o' ∧ c ≠ 'd' ∧ c ≠ 'x' := by
    intro c hc
    have hcases := hbody c hc
    refine ⟨?_, ?_, ?_, ?_⟩ <;>
      · rintro rfl
        exact absurd hcases (by decide)
  unfold splitMark
  split
  · simp at hletter
  · simp at hletter
  · simp at hletter
  · simp at hletter
  · rfl

theorem splitMark_append_mark {form : NumberForm} {body : List Char}
    (hbody : form = .bare → ∀ c ∈ body, c = '_' ∨ isDigitOf .bare c = true ∨ c = '.') :
    splitMark (form.mark ++ body) = (form, body) := by
  cases form with
  | bare => exact splitMark_of_digits (hbody rfl)
  | binary => rfl
  | octal => rfl
  | decimal => rfl
  | hexadecimal => rfl

/-- A number is spelled with a character first that begins numbers. -/
theorem exists_startsNumber {form : NumberForm} {body : List Char}
    (hbody : ∀ c ∈ body, c = '_' ∨ isDigitOf form c = true ∨ c = '.')
    (hne : form = .bare → body ≠ []) (hfirst : form = .bare → body.head? ≠ some '_') :
    ∃ c tail, form.mark ++ body = c :: tail ∧ startsNumber c = true := by
  cases form with
  | bare =>
    obtain ⟨c, tail, rfl⟩ := List.exists_cons_of_ne_nil (hne rfl)
    refine ⟨c, tail, rfl, ?_⟩
    unfold startsNumber
    rcases hbody c List.mem_cons_self with rfl | hdigit | rfl
    · exact absurd rfl (hfirst rfl)
    · exact Bool.or_eq_true_iff.2 (Or.inl hdigit)
    · decide
  | binary => exact ⟨'0', _, rfl, by decide⟩
  | octal => exact ⟨'0', _, rfl, by decide⟩
  | decimal => exact ⟨'0', _, rfl, by decide⟩
  | hexadecimal => exact ⟨'0', _, rfl, by decide⟩

theorem isWhole_number {form : NumberForm} {lexeme body : List Char}
    (digits : ∀ c ∈ lexeme, isDigitOf form c = true ∨ c = '.') (once : lexeme.count '.' ≤ 1)
    (allowed : '.' ∈ lexeme → form.hasPoint = true) (shown : form = .bare → lexeme ≠ [])
    (hlexeme : body.filter (· != '_') = lexeme) (hfirst : form = .bare → body.head? ≠ some '_') :
    IsWhole (form.mark ++ body) ⟨.number, form, lexeme⟩ := by
  have hbody : ∀ c ∈ body, c = '_' ∨ isDigitOf form c = true ∨ c = '.' := by
    intro c hc
    by_cases hunderscore : c = '_'
    · exact Or.inl hunderscore
    · have hmem : c ∈ lexeme := hlexeme ▸ List.mem_filter.2 ⟨hc, bne_iff_ne.2 hunderscore⟩
      exact Or.inr (digits c hmem)
  have hcount : body.count '.' ≤ form.hasPoint.toNat := by
    rw [← List.count_filter (p := (· != '_')) (by decide), hlexeme]
    cases hpoint : form.hasPoint with
    | true => exact once
    | false =>
      have hnone : '.' ∉ lexeme := fun hmem => by simp [allowed hmem] at hpoint
      exact Nat.le_of_eq (List.count_eq_zero.2 hnone)
  have hne : form = .bare → body ≠ [] := by
    rintro hbare rfl
    exact shown hbare hlexeme.symm
  have hnumber : number (form.mark ++ body) =
      ⟨.token .number form lexeme, form.mark ++ body, []⟩ := by
    unfold number
    rw [splitMark_append_mark fun hbare => hbare ▸ hbody]
    dsimp only
    rw [splitDigits_eq_self hbody hcount, hlexeme]
  obtain ⟨c, tail, htext, hc⟩ := exists_startsNumber hbody hne hfirst
  rw [htext] at hnumber ⊢
  refine ⟨c, tail, rfl, (beginsWord_of_startsNumber hc).skipped, ?_, ?_⟩
  · rw [read_number hc, hnumber]
  · rw [read_number hc, hnumber]

theorem isWhole_name {first : Char} {tail : List Char} (start : startsName first = true)
    (continues : ∀ c ∈ tail, continuesName c = true) :
    IsWhole (first :: tail) ⟨.identifier, .bare, first :: tail⟩ := by
  have hread := read_name start continues
  refine ⟨first, tail, rfl, (beginsWord_of_startsName start).skipped, ?_, ?_⟩
  · rw [hread]
  · rw [hread]

theorem isWhole_punctuation {c : Char} {kind : TokenKind}
    (entry : (c, kind) ∈ TokenKind.punctuation) : IsWhole [c] ⟨kind, .bare, [c]⟩ := by
  have hall : ∀ entry ∈ TokenKind.punctuation, entry.1 ≠ '\n' ∧ isSkipped entry.1 = false ∧
      TokenKind.punctuation.lookup entry.1 = some entry.2 := by decide
  obtain ⟨hnewline, hskip, hlookup⟩ := hall _ entry
  refine ⟨c, [], rfl, hskip, ?_, ?_⟩
  all_goals
    unfold read
    rw [if_neg hnewline, hlookup]

theorem isWhole_operator {symbol : List Char} {kind : TokenKind}
    (entry : (symbol, kind) ∈ TokenKind.operators) : IsWhole symbol ⟨kind, .bare, symbol⟩ := by
  simp only [TokenKind.operators, List.mem_append, List.mem_map, List.mem_cons, List.not_mem_nil,
    or_false, Prod.mk.injEq] at entry
  rcases entry with (⟨op, -, rfl, rfl⟩ | ⟨op, -, rfl, rfl⟩) | ⟨rfl, rfl⟩ | ⟨rfl, rfl⟩
  · obtain ⟨c, tail, htext, -, hwhole⟩ := isSign_symbol op
    exact ⟨c, tail, htext, hwhole⟩
  · cases op <;> exact ⟨_, _, rfl, by decide, rfl, rfl⟩
  · exact ⟨_, _, rfl, by decide, rfl, rfl⟩
  · exact ⟨_, _, rfl, by decide, rfl, rfl⟩

/-- **A spelling of a token is read as the token.** -/
theorem isWhole_of_spelling {u : Unplaced} {text : List Char} (hu : u.WellFormed)
    (htext : u.Spelling text) : IsWhole text u := by
  cases htext with
  | lexeme kind =>
    cases hu with
    | newline => exact ⟨_, _, rfl, isSkipped_newline, rfl, rfl⟩
    | punctuation entry => exact isWhole_punctuation entry
    | operator entry => exact isWhole_operator entry
    | name start continues => exact isWhole_name start continues
    | number => exact absurd rfl kind
  | number kind lexeme first =>
    cases hu with
    | newline => cases kind
    | punctuation entry => exact absurd kind (TokenKind.punctuation_ne_number _ entry)
    | operator entry => exact absurd kind (TokenKind.operators_ne_number _ entry)
    | name => cases kind
    | number digits once allowed shown =>
      exact isWhole_number digits once allowed shown lexeme first

end Head

/-! ## Rendering tokens -/

/-- A token to be written down: what is skipped in front of it, and how it is spelled. -/
structure Spelled where
  gap : List Char
  token : Unplaced
  spelling : List Char
  blank : ∀ c ∈ gap, Head.isSkipped c = true
  wellFormed : token.WellFormed
  spelled : token.Spelling spelling

/-- Tokens written down one after the other, with blanks between any two of them. -/
structure Rendering where
  tokens : List Spelled
  /-- What is skipped behind the last token. -/
  trail : List Char
  separated : ∀ t ∈ tokens.tail, t.gap ≠ []
  blank : ∀ c ∈ trail, Head.isSkipped c = true

/-- Every token of the language can be spelled. -/
theorem Unplaced.WellFormed.exists_spelling {u : Unplaced} (h : u.WellFormed) :
    ∃ text, u.Spelling text := by
  cases h with
  | newline => exact ⟨_, .lexeme (by simp)⟩
  | punctuation entry => exact ⟨_, .lexeme (TokenKind.punctuation_ne_number _ entry)⟩
  | operator entry => exact ⟨_, .lexeme (TokenKind.operators_ne_number _ entry)⟩
  | name => exact ⟨_, .lexeme (by simp)⟩
  | @number form lexeme digits =>
    have hunderscore : '_' ∉ lexeme := by
      intro hmem
      simpa [Head.isDigitOf_underscore] using digits '_' hmem
    refine ⟨form.mark ++ lexeme, .number rfl ?_ fun _ hfirst => ?_⟩
    · exact List.filter_eq_self.2 fun c hc => bne_iff_ne.2 fun heq => hunderscore (heq ▸ hc)
    · exact hunderscore (List.mem_of_mem_head? hfirst)

/-- Tokens of the language can be written down, one after the other. -/
theorem exists_rendering {us : List Unplaced} (h : ∀ u ∈ us, u.WellFormed) :
    ∃ r : Rendering, r.tokens.map Spelled.token = us := by
  have hspelled : ∃ ts : List Spelled, ts.map Spelled.token = us ∧ ∀ t ∈ ts, t.gap ≠ [] := by
    induction us with
    | nil => exact ⟨[], rfl, by simp⟩
    | cons u us ih =>
      obtain ⟨hu, hus⟩ := List.forall_mem_cons.1 h
      obtain ⟨text, htext⟩ := hu.exists_spelling
      obtain ⟨ts, hts, hgaps⟩ := ih hus
      refine ⟨⟨[' '], u, text, by simp [Head.isSkipped_space], hu, htext⟩ :: ts,
        by rw [List.map_cons, hts], ?_⟩
      exact List.forall_mem_cons.2 ⟨by simp, hgaps⟩
  obtain ⟨ts, hts, hgaps⟩ := hspelled
  exact ⟨⟨ts, [], fun t ht => hgaps t (List.mem_of_mem_tail ht), by simp⟩, hts⟩

/-- The text of some tokens and what is behind them. -/
def Spelled.render (trail : List Char) : List Spelled → List Char
  | [] => trail
  | t :: later => t.gap ++ (t.spelling ++ render trail later)

/-- The text that is written down. -/
def Rendering.text (r : Rendering) : String := String.ofList (Spelled.render r.trail r.tokens)

theorem Spelled.laidOut_render {trail : List Char} (htrail : ∀ c ∈ trail, Head.isSkipped c = true)
    {tokens : List Spelled} (hseparated : ∀ t ∈ tokens.tail, t.gap ≠ []) :
    LaidOut (tokens.map Spelled.token) (render trail tokens) := by
  induction tokens with
  | nil => exact .blanks htrail
  | cons t later ih =>
    have hlater := ih fun other hother => hseparated other (List.mem_of_mem_tail hother)
    refine .token t.blank (Head.isWhole_of_spelling t.wellFormed t.spelled) ?_ hlater
    intro x hx
    cases later with
    | nil => exact htrail x (List.mem_of_mem_head? hx)
    | cons next later =>
      obtain ⟨c, gap, hgap⟩ := List.exists_cons_of_ne_nil (hseparated next List.mem_cons_self)
      have hc : x = c := by simpa [render, hgap] using hx.symm
      exact next.blank x (by simp [hgap, hc])

theorem Scanner.wellFormed_pieces (s : Scanner) :
    ∀ t ∈ tokensOf s.pieces, t.unplaced.WellFormed := by
  induction s using pieces.induct with
  | case1 s t next hscan ih =>
    rw [pieces_of_token hscan, tokensOf_ok]
    cases Step.of_scan hscan with
    | token _ _ _ _ _ wellFormed => exact List.forall_mem_cons.2 ⟨wellFormed, ih⟩
  | case2 s f next hscan ih =>
    rw [pieces_of_fault hscan, tokensOf_error]
    exact ih
  | case3 s next hscan =>
    rw [pieces_of_finished hscan]
    simp

/-- **What is scanned is well formed, and well-formed tokens can be written down in many
ways and are what is scanned then.** -/
theorem scanning_undoes_rendering :
    (∀ text, ∀ t ∈ tokenize text, t.unplaced.WellFormed) ∧
    (∀ us : List Unplaced, (∀ u ∈ us, u.WellFormed) →
      ∃ r : Rendering, r.tokens.map Spelled.token = us) ∧
    ∀ r : Rendering, (tokenize r.text).map Token.unplaced = r.tokens.map Spelled.token ∧
      scanFaults r.text = [] := by
  refine ⟨fun text => (Scanner.ofText text).wellFormed_pieces, fun us => exists_rendering,
    fun r => ?_⟩
  have hrest : (Scanner.ofText r.text).rest = Spelled.render r.trail r.tokens :=
    String.toList_ofList
  exact Scanner.pieces_of_laidOut (hrest ▸ Spelled.laidOut_render r.blank r.separated)

/-- A number with a mark and an underscore, a compound assignment behind a tab, a newline,
and a number that ends with a point. -/
def Rendering.marked : Rendering where
  tokens := [
    ⟨[' '], ⟨.number, .hexadecimal, ['1', 'F']⟩, ['0', 'x', '_', '1', 'F'],
      List.forall_mem_singleton.2 (by decide),
      .number (List.forall_mem_cons.2 ⟨by decide, List.forall_mem_singleton.2 (by decide)⟩)
        (by decide) (by decide) (by decide),
      .number rfl rfl (by decide)⟩,
    ⟨['\t'], ⟨.compound .shiftLeft, .bare, ['<', '<', '=']⟩, ['<', '<', '='],
      List.forall_mem_singleton.2 (by decide), .operator (by decide), .lexeme (by decide)⟩,
    ⟨[' '], ⟨.newline, .bare, ['\n']⟩, ['\n'], List.forall_mem_singleton.2 (by decide),
      .newline, .lexeme (by decide)⟩,
    ⟨[' '], ⟨.number, .bare, ['7', '.']⟩, ['7', '_', '.'],
      List.forall_mem_singleton.2 (by decide),
      .number (List.forall_mem_cons.2 ⟨by decide, List.forall_mem_singleton.2 (by decide)⟩)
        (by decide) (by decide) (by decide),
      .number rfl rfl (by decide)⟩]
  trail := []
  separated := by simp
  blank := by simp

theorem scanning_undoes_marked_rendering :
    (tokenize " 0x_1F\t<<= \n 7_.").map Token.unplaced =
      [⟨.number, .hexadecimal, ['1', 'F']⟩, ⟨.compound .shiftLeft, .bare, ['<', '<', '=']⟩,
        ⟨.newline, .bare, ['\n']⟩, ⟨.number, .bare, ['7', '.']⟩] ∧
    scanFaults " 0x_1F\t<<= \n 7_." = [] :=
  scanning_undoes_rendering.2.2 .marked

end LineCalculator
