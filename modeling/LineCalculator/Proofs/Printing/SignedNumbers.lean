import LineCalculator.Decimal.Layout
import LineCalculator.Evaluation.Run
import LineCalculator.Proofs.Numbers.Literals
import LineCalculator.Proofs.Printing.FewestBrackets
import LineCalculator.Proofs.Scanning.Rendering

/-!
# Lines that are a number

A line that is the text of a number, or a minus sign and the text of a number, is accepted as
the number or as the number negated (`parse_signed`), and this is what it comes to when it is
run (`Scope.run_signed`).

## Why the room is enough

That the tokens are a line of the grammar leaves open whether there is room for their depth.
The depth of a derivation is known to exist and no more, so here the levels are counted: an
operand with its signs takes one unit for every level of operators and a few for the readers
around them, whatever the room is beyond that (`Reader.reads_expression_of_signed`).
-/

namespace LineCalculator

open Grammar

/-! ## Reading an operand with its signs -/

namespace Reader

variable {supply room : Nat} {p : Prop} {marks ts : List Token} {ops : List UnaryOp} {e : Expr}

/-- Without an operator of its own, a level takes a unit of room more than the next one. -/
theorem reads_operation_of_succ {level : Nat} (hlevel : level < BinaryOp.levels)
    (h : Reads (phrase supply room (.operation (level + 1))) supply p ts e (Fits (level + 1))) :
    Reads (phrase supply (room + 1) (.operation level)) supply p ts e (Fits level) := by
  rw [phrase, if_pos hlevel, chain]
  exact h.bind_nil (reads_links_nil level _ e) fun rest hrest => hrest.mono (Nat.le_succ level)

theorem reads_operation_of_levels (hmarks : List.Forall₂ (fun t op => t.kind.unary? = some op)
      marks ops) (hprimary : Primary ts e)
    (h : Reads (phrase supply room .primary) supply p ts e (Fits BinaryOp.levels)) {level : Nat}
    (hlevel : level ≤ BinaryOp.levels) :
    Reads (phrase supply (room + 2 + (BinaryOp.levels - level)) (.operation level)) supply p
      (marks ++ ts) (ops.foldr .unary e) (Fits level) := by
  induction hn : BinaryOp.levels - level generalizing level with
  | zero =>
    obtain rfl : level = BinaryOp.levels := by omega
    rw [Nat.add_zero, phrase, if_neg (Nat.lt_irrefl _), phrase]
    exact reads_signed hmarks hprimary h
  | succ n ih =>
    exact reads_operation_of_succ (by omega) (ih (by omega) (by omega))

/-- **The room that an operand with its signs takes.** -/
theorem reads_expression_of_signed (room : Nat)
    (hmarks : List.Forall₂ (fun t op => t.kind.unary? = some op) marks ops)
    (hprimary : Primary ts e)
    (h : Reads (phrase supply room .primary) supply p ts e (Fits BinaryOp.levels)) :
    Reads (phrase supply (room + BinaryOp.levels + 4) .expression) supply p (marks ++ ts)
      (ops.foldr .unary e) Closes := by
  have hoperation := reads_operation_of_levels hmarks hprimary h (Nat.zero_le _)
  rw [Nat.sub_zero, Nat.add_right_comm] at hoperation
  rw [show room + BinaryOp.levels + 4 = (room + BinaryOp.levels + 2) + 1 + 1 from rfl, phrase,
    phrase]
  exact reads_operation hoperation

end Reader

open Reader

/-- A text of signs and a number is accepted. -/
theorem Parse.accepts_of_signed {text : String} {marks : List Token} {ops : List UnaryOp}
    {t : Token} {value : Binary64} (hclear : '\n' ∉ text.toList) (hfaults : scanFaults text = [])
    (htokens : tokenize text = marks ++ [t])
    (hmarks : List.Forall₂ (fun t op => t.kind.unary? = some op) marks ops)
    (ht : t.kind = .number) (hvalue : t.value? = some value) :
    (parse text).Accepts (.expression (ops.foldr .unary (.literal value))) := by
  have hself := firstLine_eq_self hclear
  have hprimary : Primary [t] (.literal value) := .number ht hvalue
  have hexpression : Expression (marks ++ [t]) (ops.foldr .unary (.literal value)) :=
    .operation (Operation.of_le (.signed (Nat.le_refl _) hmarks hprimary) (Nat.zero_le _))
  have halone : ∀ u, marks ++ [t] = [u] → isWord exitWords u = false := by
    intro u hu
    have hlast := congrArg List.getLast? hu
    rw [List.getLast?_concat] at hlast
    obtain rfl : t = u := by simpa using hlast
    exact Expr.isWord_of_kind_ne (by simp [ht])
  obtain ⟨rest, hfeed, hends⟩ := Feed.exists_endsLine_ofText (hself.symm ▸ hfaults)
  rw [hself, htokens] at hfeed
  have hphrase : Reads (phrase ((Feed.ofText text).remaining.length + 1) Parse.room .expression)
      ((Feed.ofText text).remaining.length + 1) True (marks ++ [t])
      (ops.foldr .unary (.literal value)) Closes :=
    reads_expression_of_signed (Parse.room - BinaryOp.levels - 4) hmarks hprimary
      (reads_number ht hvalue _)
  have hline := yields_line_of_content (reads_content hexpression halone hphrase) hfeed hends rfl
    (Nat.lt_succ_self _)
  obtain ⟨after, hok, hquiet, -⟩ := hline.ok trivial
  exact Parse.accepts_of_ok hok hquiet rfl

/-! ## Scanning a number with its sign -/

namespace Literal

/-- The lexeme of a number without a mark is a spelling of the number. -/
theorem Lexeme.isWhole {lexeme : List Char} (h : Lexeme .bare lexeme) (hne : lexeme ≠ []) :
    Head.IsWhole lexeme ⟨.number, .bare, lexeme⟩ := by
  have hunderscore : ∀ c ∈ lexeme, c ≠ '_' := h.ne (by decide) (by decide)
  refine Head.isWhole_of_spelling (h.wellFormed fun _ => hne) (.number rfl ?_ ?_)
  · exact List.filter_eq_self.2 fun c hc => bne_iff_ne.2 (hunderscore c hc)
  · exact fun _ hfirst => hunderscore '_' (List.mem_of_mem_head? hfirst) rfl

end Literal

namespace Head

/-- Before a digit the minus sign is a token of its own. -/
theorem read_minus {c : Char} (hc : c.isDigit = true) (tail : List Char) :
    read '-' (c :: tail) = ⟨.token (.operator .subtract) .bare ['-'], ['-'], c :: tail⟩ := by
  have hall : ∀ n < 58, (Char.ofNat n).isDigit = true →
      beginsOperator ['-', Char.ofNat n] = false := by decide +kernel
  have hlt : c.toNat < 58 :=
    Nat.lt_succ_of_le (toNat_of_startsNumber (Bool.or_eq_true_iff.2 (Or.inl hc))).2
  have hbegins : beginsOperator (['-'] ++ [c]) = false := by
    obtain ⟨n, hn, rfl⟩ := Literal.exists_ofNat_eq hlt
    exact hall n hn hc
  have hsplit : splitOperator ['-'] (c :: tail) = (['-'], c :: tail) := by
    rw [splitOperator, hbegins]
    rfl
  have hread : read '-' (c :: tail) = operator '-' (c :: tail) := rfl
  rw [hread]
  unfold operator
  rw [hsplit]
  rfl

end Head

namespace Scanner

/-- A scanner that has a number before it and nothing else yields the number. -/
theorem pieces_of_number {s : Scanner} {body : List Char} (hlexeme : Literal.Lexeme .bare body)
    (hne : body ≠ []) (hs : s.rest = body) :
    faultsOf s.pieces = [] ∧
      ∃ t, tokensOf s.pieces = [t] ∧ t.unplaced = ⟨.number, .bare, body⟩ := by
  have hscan := ScansAs.of_isWhole (hlexeme.isWhole hne)
  rw [← hs] at hscan
  obtain ⟨htokens, hfaults⟩ := pieces_of_scansAs hscan
  obtain ⟨t, htokens, ht⟩ := List.map_eq_singleton_iff.1 htokens
  exact ⟨hfaults, t, htokens, ht.trans (by rw [hs])⟩

/-- A scanner before a minus sign and a digit yields the sign. -/
theorem exists_scan_of_minus {s : Scanner} {c : Char} {tail : List Char}
    (hs : s.rest = '-' :: c :: tail) (hc : c.isDigit = true) :
    ∃ sign next, s.scan = (.token sign, next) ∧ sign.kind = .operator .subtract ∧
      next.rest = c :: tail := by
  have hdrop : s.rest.dropWhile Head.isSkipped = '-' :: c :: tail := by
    rw [hs]
    exact List.dropWhile_cons_of_neg (by decide)
  have hread := Head.read_minus hc tail
  have hscan := scan_of_token hdrop (congrArg Head.content hread)
  rw [hread] at hscan
  exact ⟨_, _, hscan, rfl, rfl⟩

end Scanner

/-- The signs of a number. -/
def signOps (negative : Bool) : List UnaryOp := if negative then [.negate] else []

/-- The text of a number with its sign is scanned as the sign and the number. -/
theorem tokenize_signed (negative : Bool) {body : List Char} (hlexeme : Literal.Lexeme .bare body)
    (hfirst : ∃ c tail, body = c :: tail ∧ c.isDigit = true) :
    scanFaults (String.ofList (Binary64.signText negative ++ body)) = [] ∧
      ∃ marks t, tokenize (String.ofList (Binary64.signText negative ++ body)) = marks ++ [t] ∧
        List.Forall₂ (fun t op => t.kind.unary? = some op) marks (signOps negative) ∧
        t.unplaced = ⟨.number, .bare, body⟩ := by
  obtain ⟨c, tail, hbody, hc⟩ := hfirst
  have hne : body ≠ [] := by simp [hbody]
  rw [scanFaults_eq_faultsOf, tokenize_eq_tokensOf]
  cases negative with
  | false =>
    obtain ⟨hfaults, t, htokens, ht⟩ := Scanner.pieces_of_number hlexeme hne
      (s := .ofText (String.ofList body)) (by simp [Scanner.ofText])
    exact ⟨hfaults, [], t, htokens, .nil, ht⟩
  | true =>
    have htext : (Scanner.ofText (String.ofList ('-' :: body))).rest = '-' :: c :: tail := by
      simp [Scanner.ofText, hbody]
    obtain ⟨sign, next, hscan, hkind, hrest⟩ := Scanner.exists_scan_of_minus htext hc
    obtain ⟨hfaults, t, htokens, ht⟩ :=
      Scanner.pieces_of_number hlexeme hne (hrest.trans hbody.symm)
    rw [show Binary64.signText true ++ body = '-' :: body from rfl,
      Scanner.pieces_of_token hscan, faultsOf_ok, tokensOf_ok, htokens]
    exact ⟨hfaults, [sign], t, rfl, .cons (congrArg TokenKind.unary? hkind) .nil, ht⟩

/-! ## What such a line is and comes to -/

theorem Scope.run_signed (s : Scope) (negative : Bool) (value : Binary64) :
    (s.run ((signOps negative).foldr .unary (.literal value))).outcome =
      .ok (if negative then value.neg else value) := by
  cases negative with
  | false => rfl
  | true => rfl

/-- **The text of a number, with its sign before it, is accepted and comes to the number.** -/
theorem parse_signed (negative : Bool) {body : List Char} {code : Fin Binary64.infinityCode}
    (hlexeme : Literal.Lexeme .bare body)
    (hfirst : ∃ c tail, body = c :: tail ∧ c.isDigit = true)
    (hvalue : Literal.value? .bare body = some (.finite false code)) :
    ∃ e, (parse (String.ofList (Binary64.signText negative ++ body))).Accepts (.expression e) ∧
      ∀ s : Scope, (s.run e).outcome = .ok (.finite negative code) := by
  obtain ⟨hfaults, marks, t, htokens, hmarks, ht⟩ := tokenize_signed negative hlexeme hfirst
  have hclear : '\n' ∉ (String.ofList (Binary64.signText negative ++ body)).toList := by
    have hbody : '\n' ∉ body := fun hmem => hlexeme.ne (by decide) (by decide) '\n' hmem rfl
    rw [String.toList_ofList]
    cases negative with
    | false => exact hbody
    | true => exact fun hmem => hbody ((List.mem_cons.1 hmem).resolve_left (by decide))
  have hvalue' : t.value? = some (.finite false code) := by
    rw [← hvalue]
    exact congrArg (fun u : Unplaced => Literal.value? u.form u.lexeme) ht
  refine ⟨_, Parse.accepts_of_signed hclear hfaults htokens hmarks
    (congrArg Unplaced.kind ht) hvalue', fun s => ?_⟩
  rw [s.run_signed]
  cases negative with
  | false => rfl
  | true => rfl

end LineCalculator
