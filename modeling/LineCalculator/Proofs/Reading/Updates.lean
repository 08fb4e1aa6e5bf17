import LineCalculator.Proofs.Printing.FewestBrackets
import LineCalculator.Proofs.Reading.Language
import LineCalculator.Proofs.Scanning.LineBreak
import LineCalculator.Proofs.Scanning.Rendering

/-!
# Lines that update a variable

A line that updates a variable by a compound operator says the same as the assignment that is
written out, with the value in brackets: `x += y | z` and `x = x + (y | z)` are one expression.
The value may be the text of any line that is accepted as an expression.

## 1.  The text of the value within the line

The tokens of the value stand elsewhere in the line than they do alone.  The rules of the grammar
look at kinds, forms and lexemes and at no place, so they derive the same expression of them
(`Grammar.Expression.of_alike`).

## 2.  What a line says however it is laid out

For the same reason nothing is said of blanks: `LineSays` is about all texts with the tokens of a
line.  A line says an expression if the rules derive it of tokens that are alike
(`lineSays_of_expression`), and this is shown of the four kinds of lines.

## 3.  Why the brackets

A compound operator takes an expression as its value, and an operator takes an operand, which
binds more tightly than the operator does.  In brackets every expression is an operand
(`Primary.bracketed`).
-/

namespace LineCalculator

/-! ## 1.  Tokens that are alike -/

/-- Some tokens are others but for their places. -/
def Alike (us ts : List Token) : Prop := us.map Token.unplaced = ts.map Token.unplaced

namespace Alike

variable {us ts more : List Token} {t : Token}

theorem nil (h : Alike us []) : us = [] := List.map_eq_nil_iff.1 h

theorem cons (h : Alike us (t :: ts)) :
    ∃ u us', us = u :: us' ∧ u.unplaced = t.unplaced ∧ Alike us' ts :=
  List.map_eq_cons_iff.1 h

theorem append (h : Alike us (ts ++ more)) :
    ∃ us' vs, us = us' ++ vs ∧ Alike us' ts ∧ Alike vs more := by
  unfold Alike at h
  rw [List.map_append] at h
  exact List.map_eq_append_iff.1 h

theorem append_cons (h : Alike us (ts ++ t :: more)) :
    ∃ us' u vs, us = us' ++ u :: vs ∧ Alike us' ts ∧ u.unplaced = t.unplaced ∧ Alike vs more := by
  obtain ⟨us', vs, rfl, hus, hvs⟩ := h.append
  obtain ⟨u, vs, rfl, hu, hvs⟩ := hvs.cons
  exact ⟨us', u, vs, rfl, hus, hu, hvs⟩

theorem append_singleton (h : Alike us (ts ++ [t])) :
    ∃ us' u, us = us' ++ [u] ∧ Alike us' ts ∧ u.unplaced = t.unplaced := by
  obtain ⟨us', u, vs, rfl, hus, hu, hvs⟩ := h.append_cons
  exact ⟨us', u, by rw [hvs.nil], hus, hu⟩

theorem singleton (h : Alike us [t]) : ∃ u, us = [u] ∧ u.unplaced = t.unplaced := by
  obtain ⟨u, us, rfl, hu, hus⟩ := h.cons
  exact ⟨u, by rw [hus.nil], hu⟩

end Alike

section Unplaced

variable {t u : Token} (h : u.unplaced = t.unplaced)

include h

theorem Token.kind_eq_of_unplaced : u.kind = t.kind := congrArg Unplaced.kind h

theorem Token.lexeme_eq_of_unplaced : u.lexeme = t.lexeme :=
  String.toList_injective (congrArg Unplaced.lexeme h)

theorem Token.value?_eq_of_unplaced : u.value? = t.value? :=
  congrArg (fun v : Unplaced => Literal.value? v.form v.lexeme) h

end Unplaced

namespace Grammar

theorem marks_of_alike {marks : List Token} {ops : List UnaryOp}
    (hmarks : List.Forall₂ (fun t op => t.kind.unary? = some op) marks ops) {us : List Token}
    (h : Alike us marks) : List.Forall₂ (fun t op => t.kind.unary? = some op) us ops := by
  induction hmarks generalizing us with
  | nil =>
    obtain rfl := h.nil
    exact .nil
  | cons hop _ ih =>
    obtain ⟨u, us, rfl, hu, hus⟩ := h.cons
    exact .cons (by rw [Token.kind_eq_of_unplaced hu, hop]) (ih hus)

mutual

/-- **The rules look at no place.** -/
theorem Expression.of_alike {ts us : List Token} {e : Expr} :
    Expression ts e → Alike us ts → Expression us e
  | .operation hoperation, h => .operation (hoperation.of_alike h)
  | .assign htarget ht hvalue, h => by
    obtain ⟨target, u, value, rfl, htargets, hu, hvalues⟩ := h.append_cons
    exact .assign (htarget.of_alike htargets) ((Token.kind_eq_of_unplaced hu).trans ht)
      (hvalue.of_alike hvalues)
  | .update htarget ht hvalue, h => by
    obtain ⟨target, u, value, rfl, htargets, hu, hvalues⟩ := h.append_cons
    exact .update (htarget.of_alike htargets) ((Token.kind_eq_of_unplaced hu).trans ht)
      (hvalue.of_alike hvalues)
  | .increment htarget ht, h => by
    obtain ⟨target, u, rfl, htargets, hu⟩ := h.append_singleton
    exact .increment (htarget.of_alike htargets) ((Token.kind_eq_of_unplaced hu).trans ht)
  | .decrement htarget ht, h => by
    obtain ⟨target, u, rfl, htargets, hu⟩ := h.append_singleton
    exact .decrement (htarget.of_alike htargets) ((Token.kind_eq_of_unplaced hu).trans ht)

theorem Operation.of_alike {level : Nat} {ts us : List Token} {e : Expr} :
    Operation level ts e → Alike us ts → Operation level us e
  | .chain hlevel hfirst hlinks, h => by
    obtain ⟨first, links, rfl, hfirsts, hmore⟩ := h.append
    exact .chain hlevel (hfirst.of_alike hfirsts) (hlinks.of_alike hmore)
  | .signed hlevel hmarks hprimary, h => by
    obtain ⟨marks, ts, rfl, hsigns, hmore⟩ := h.append
    exact .signed hlevel (marks_of_alike hmarks hsigns) (hprimary.of_alike hmore)

theorem Links.of_alike {level : Nat} {left e : Expr} {ts us : List Token} :
    Links level left ts e → Alike us ts → Links level left us e
  | .nil, h => h.nil ▸ .nil
  | .cons ht hop hoperand hrest, h => by
    obtain ⟨u, us, rfl, hu, hus⟩ := h.cons
    obtain ⟨operand, rest, rfl, hoperands, hmore⟩ := hus.append
    exact .cons ((Token.kind_eq_of_unplaced hu).trans ht) hop (hoperand.of_alike hoperands)
      (hrest.of_alike hmore)

theorem Primary.of_alike {ts us : List Token} {e : Expr} :
    Primary ts e → Alike us ts → Primary us e
  | .number ht hvalue, h => by
    obtain ⟨u, rfl, hu⟩ := h.singleton
    exact .number ((Token.kind_eq_of_unplaced hu).trans ht)
      ((Token.value?_eq_of_unplaced hu).trans hvalue)
  | .name ht, h => by
    obtain ⟨u, rfl, hu⟩ := h.singleton
    rw [← Token.lexeme_eq_of_unplaced hu]
    exact .name ((Token.kind_eq_of_unplaced hu).trans ht)
  | .callWithout ht hbra hket, h => by
    obtain ⟨u, us, rfl, hu, hus⟩ := h.cons
    obtain ⟨bra, us, rfl, hbras, hus⟩ := hus.cons
    obtain ⟨ket, rfl, hkets⟩ := hus.singleton
    rw [← Token.lexeme_eq_of_unplaced hu]
    exact .callWithout ((Token.kind_eq_of_unplaced hu).trans ht)
      ((Token.kind_eq_of_unplaced hbras).trans hbra) ((Token.kind_eq_of_unplaced hkets).trans hket)
  | .call ht hbra harguments, h => by
    obtain ⟨u, us, rfl, hu, hus⟩ := h.cons
    obtain ⟨bra, us, rfl, hbras, hus⟩ := hus.cons
    rw [← Token.lexeme_eq_of_unplaced hu]
    exact .call ((Token.kind_eq_of_unplaced hu).trans ht)
      ((Token.kind_eq_of_unplaced hbras).trans hbra) (harguments.of_alike hus)
  | .bracketed hbra hexpression hket, h => by
    obtain ⟨bra, us, rfl, hbras, hus⟩ := h.cons
    obtain ⟨us, ket, rfl, hus, hkets⟩ := hus.append_singleton
    exact .bracketed ((Token.kind_eq_of_unplaced hbras).trans hbra) (hexpression.of_alike hus)
      ((Token.kind_eq_of_unplaced hkets).trans hket)

theorem ArgumentList.of_alike {ts us : List Token} {es : List Expr} :
    ArgumentList ts es → Alike us ts → ArgumentList us es
  | .last hexpression hket, h => by
    obtain ⟨us, ket, rfl, hus, hkets⟩ := h.append_singleton
    exact .last (hexpression.of_alike hus) ((Token.kind_eq_of_unplaced hkets).trans hket)
  | .next hexpression ht hmore, h => by
    obtain ⟨us, u, more, rfl, hus, hu, hrest⟩ := h.append_cons
    exact .next (hexpression.of_alike hus) ((Token.kind_eq_of_unplaced hu).trans ht)
      (hmore.of_alike hrest)

end

end Grammar

open Grammar

/-! ## 2.  What a line says -/

/-- However a line is laid out, it is accepted as an expression, unless there is too little room
for its nesting. -/
structure LineSays (line : String) (e : Expr) : Prop where
  faultless : scanFaults line = []
  accepted : ∀ text, scanFaults text = [] → Alike (tokenize text) (tokenize line) →
    .parse .tooDeep ∉ (parse text).diagnostics → (parse text).Accepts (.expression e)

/-- A text without a token that is a newline is its first line. -/
theorem firstLine_eq_of_newline_notMem {text : String}
    (h : ∀ t ∈ tokenize text, t.kind ≠ .newline) : firstLine text = text := by
  rcases text_cases text with hself | ⟨more, hmore⟩
  · exact hself
  · obtain ⟨next, -, -, hpieces⟩ := Scanner.pieces_before (s := .ofText (firstLine text))
      List.suffix_rfl more
    rw [tokenize_eq_tokensOf, hmore, hpieces, tokensOf_append, tokensOf_ok] at h
    exact absurd rfl (h _ (List.mem_append_right _ List.mem_cons_self))

/-- A line of two tokens or more says what the rules derive of tokens that are alike. -/
theorem lineSays_of_expression {texts : List (List Char)} {uss : List (List Unplaced)} {e : Expr}
    (hscan : List.Forall₂ ScansAs uss texts)
    (hderive : ∀ ts, ts.map Token.unplaced = uss.flatten → 2 ≤ ts.length ∧ Expression ts e) :
    LineSays (.ofList (joined texts)) e := by
  have hjoined := ScansAs.joined hscan
  rw [← String.toList_ofList (l := joined texts)] at hjoined
  obtain ⟨hfaults, htokens⟩ := tokenize_of_scansAs hjoined
  refine ⟨hfaults, fun text hsound halike hroom => ?_⟩
  obtain ⟨hlength, hexpression⟩ := hderive (tokenize text) (halike.trans htokens)
  have hself : firstLine text = text :=
    firstLine_eq_of_newline_notMem hexpression.newline_notMem
  have halone : ∀ t, tokenize text = [t] → Reader.isWord Reader.exitWords t = false := by
    intro t ht
    rw [ht, List.length_singleton] at hlength
    exact absurd hlength (by decide)
  have hline : WholeLine (tokenize (firstLine text)) (.expression e) :=
    hself.symm ▸ .expression hexpression halone
  rcases hline.accepts (hself.symm ▸ hsound) with haccepts | hdeep
  · exact haccepts text rfl
  · exact absurd (hdeep text rfl) hroom

/-! ## 3.  Updates and what they stand for -/

/-- A name is an operand. -/
theorem Grammar.Operation.of_name {x : String} {t : Token}
    (ht : t.unplaced = ⟨.identifier, .bare, x.toList⟩) (level : Nat) :
    Operation level [t] (.var x) := by
  have hlexeme : t.lexeme = x := String.toList_injective (congrArg Unplaced.lexeme ht)
  have hprimary : Primary [t] (.var t.lexeme) := .name (congrArg Unplaced.kind ht)
  exact hlexeme ▸ .of_primary hprimary level

/-- An operator between a name and an operand. -/
theorem Grammar.Operation.of_operands {x : String} {op : BinaryOp} {t sign : Token}
    {operand : List Token} {e : Expr} (ht : t.unplaced = ⟨.identifier, .bare, x.toList⟩)
    (hsign : sign.kind = .operator op) (hoperand : Primary operand e) :
    Operation 0 (t :: sign :: operand) (.binary op (.var x) e) :=
  .of_le (.snoc (.of_name ht op.level) hsign rfl (.of_primary hoperand _)) (Nat.zero_le _)

/-- The two operators that are written twice to add or to take away one. -/
theorem Grammar.Expression.exists_step {op : BinaryOp} (hop : op ∈ [BinaryOp.add, .subtract]) :
    ∃ kind, (op.symbol ++ op.symbol, kind) ∈ TokenKind.operators ∧
      ∀ {target : List Token} {t : Token} {x : String}, Operation 0 target (.var x) →
        t.kind = kind →
          Expression (target ++ [t]) (.assign x (.binary op (.var x) (.literal Binary64.one))) := by
  simp only [List.mem_cons, List.not_mem_nil, or_false] at hop
  obtain rfl | rfl := hop
  · exact ⟨.increment, by decide, .increment⟩
  · exact ⟨.decrement, by decide, .decrement⟩

namespace ScansAs

theorem name {text : List Char} (h : Head.IsName text) :
    ScansAs [⟨.identifier, .bare, text⟩] text := by
  obtain ⟨c, tail, rfl, hc, htail⟩ := h
  exact .of_isWhole (Head.isWhole_name hc htail)

theorem punctuation {c : Char} {kind : TokenKind} (entry : (c, kind) ∈ TokenKind.punctuation) :
    ScansAs [⟨kind, .bare, [c]⟩] [c] :=
  .of_isWhole (Head.isWhole_punctuation entry)

theorem operator {symbol : List Char} {kind : TokenKind}
    (entry : (symbol, kind) ∈ TokenKind.operators) : ScansAs [⟨kind, .bare, symbol⟩] symbol :=
  .of_isWhole (Head.isWhole_operator entry)

end ScansAs

namespace TokenKind

theorem operator_mem_operators (op : BinaryOp) : (op.symbol, .operator op) ∈ operators := by
  cases op <;> decide

theorem compound_mem_operators (op : BinaryOp) :
    (op.symbol ++ ['='], .compound op) ∈ operators := by
  cases op <;> decide

end TokenKind

/-- A text that is accepted as an expression, and has no newline, is scanned as tokens of which
the rules derive the expression. -/
theorem Parse.Accepts.exists_scansAs {value : String} {e : Expr}
    (h : (parse value).Accepts (.expression e)) (hclear : '\n' ∉ value.toList) :
    ∃ us, ScansAs us value.toList ∧ ∀ ts, ts.map Token.unplaced = us → Expression ts e := by
  obtain ⟨hfaults, hline⟩ := h.wholeLine
  rw [firstLine_eq_self hclear] at hfaults hline
  refine ⟨_, scansAs_of_scanFaults hfaults, fun ts hts => ?_⟩
  have hexpression : Expression (tokenize value) e := by
    generalize tokenize value = us at hline
    cases hline with
    | expression hexpression halone => exact hexpression
  exact hexpression.of_alike hts

section Lines

variable {x value : String} {e : Expr} (hx : Head.IsName x.toList)

include hx

/-- A compound operator with its value. -/
theorem lineSays_update (op : BinaryOp) (hvalue : (parse value).Accepts (.expression e))
    (hclear : '\n' ∉ value.toList) :
    LineSays (.ofList (joined [x.toList, op.symbol ++ ['='], value.toList]))
      (.assign x (.binary op (.var x) e)) := by
  obtain ⟨us, hscan, hderive⟩ := hvalue.exists_scansAs hclear
  refine lineSays_of_expression (.cons (.name hx)
    (.cons (.operator (TokenKind.compound_mem_operators op)) (.cons hscan .nil))) fun ts hts => ?_
  rw [List.flatten_cons, List.flatten_cons, List.flatten_singleton] at hts
  obtain ⟨t, ts, rfl, ht, hts⟩ := List.map_eq_cons_iff.1 hts
  obtain ⟨sign, ts, rfl, hsign, hts⟩ := List.map_eq_cons_iff.1 hts
  exact ⟨by simp, .update (.of_name ht 0) (congrArg Unplaced.kind hsign) (hderive ts hts)⟩

/-- An assignment of an operator between the variable and an operand. -/
theorem lineSays_assign_operation (op : BinaryOp) {operands : List (List Char)}
    {uss : List (List Unplaced)} (hscan : List.Forall₂ ScansAs uss operands)
    (hderive : ∀ ts, ts.map Token.unplaced = uss.flatten → Primary ts e) :
    LineSays (.ofList (joined ([x.toList, ['='], x.toList, op.symbol] ++ operands)))
      (.assign x (.binary op (.var x) e)) := by
  have hequals : ScansAs [⟨.equals, .bare, ['=']⟩] ['='] := .punctuation (by decide)
  refine lineSays_of_expression (.cons (.name hx) (.cons hequals (.cons (.name hx)
    (.cons (.operator (TokenKind.operator_mem_operators op)) hscan)))) fun ts hts => ?_
  rw [List.flatten_cons, List.flatten_cons, List.flatten_cons, List.flatten_cons] at hts
  obtain ⟨t, ts, rfl, ht, hts⟩ := List.map_eq_cons_iff.1 hts
  obtain ⟨equals, ts, rfl, hequals, hts⟩ := List.map_eq_cons_iff.1 hts
  obtain ⟨t', ts, rfl, ht', hts⟩ := List.map_eq_cons_iff.1 hts
  obtain ⟨sign, ts, rfl, hsign, hts⟩ := List.map_eq_cons_iff.1 hts
  have hoperation := Operation.of_operands ht' (congrArg Unplaced.kind hsign) (hderive ts hts)
  exact ⟨by simp, .assign (.of_name ht 0) (congrArg Unplaced.kind hequals) (.operation hoperation)⟩

/-- A compound operator written out, with the value in brackets. -/
theorem lineSays_update_expanded (op : BinaryOp) (hvalue : (parse value).Accepts (.expression e))
    (hclear : '\n' ∉ value.toList) :
    LineSays (.ofList (joined [x.toList, ['='], x.toList, op.symbol, ['('], value.toList, [')']]))
      (.assign x (.binary op (.var x) e)) := by
  obtain ⟨us, hscan, hderive⟩ := hvalue.exists_scansAs hclear
  have hopen : ScansAs [⟨.openBracket, .bare, ['(']⟩] ['('] := .punctuation (by decide)
  have hclose : ScansAs [⟨.closeBracket, .bare, [')']⟩] [')'] := .punctuation (by decide)
  refine lineSays_assign_operation hx op (.cons hopen (.cons hscan (.cons hclose .nil)))
    fun ts hts => ?_
  rw [List.flatten_cons, List.flatten_cons, List.flatten_singleton, List.singleton_append] at hts
  obtain ⟨bra, ts, rfl, hbra, hts⟩ := List.map_eq_cons_iff.1 hts
  obtain ⟨within, kets, rfl, hwithin, hkets⟩ := List.map_eq_append_iff.1 hts
  obtain ⟨ket, rfl, hket⟩ := List.map_eq_singleton_iff.1 hkets
  exact .bracketed (congrArg Unplaced.kind hbra) (hderive within hwithin)
    (congrArg Unplaced.kind hket)

/-- A sign that adds or takes away one. -/
theorem lineSays_step {op : BinaryOp} (hop : op ∈ [BinaryOp.add, .subtract]) :
    LineSays (.ofList (joined [x.toList, op.symbol ++ op.symbol]))
      (.assign x (.binary op (.var x) (.literal Binary64.one))) := by
  obtain ⟨kind, hentry, hderive⟩ := Expression.exists_step hop
  refine lineSays_of_expression (.cons (.name hx) (.cons (.operator hentry) .nil)) fun ts hts => ?_
  rw [List.flatten_cons, List.flatten_singleton] at hts
  obtain ⟨t, ts, rfl, ht, hts⟩ := List.map_eq_cons_iff.1 hts
  obtain ⟨sign, rfl, hsign⟩ := List.map_eq_singleton_iff.1 hts
  exact ⟨by simp, hderive (.of_name ht 0) (congrArg Unplaced.kind hsign)⟩

/-- The same written out. -/
theorem lineSays_step_expanded (op : BinaryOp) :
    LineSays (.ofList (joined [x.toList, ['='], x.toList, op.symbol, ['1']]))
      (.assign x (.binary op (.var x) (.literal Binary64.one))) := by
  have hone : Head.IsWhole ['1'] ⟨.number, .bare, ['1']⟩ := ⟨_, _, rfl, by decide, rfl, rfl⟩
  refine lineSays_assign_operation hx op (.cons (.of_isWhole hone) .nil) fun ts hts => ?_
  obtain ⟨t, rfl, ht⟩ := List.map_eq_singleton_iff.1 hts
  have hvalue : t.value? = some Binary64.one :=
    (congrArg (fun u : Unplaced => Literal.value? u.form u.lexeme) ht).trans (by decide +kernel)
  exact .number (congrArg Unplaced.kind ht) hvalue

end Lines

end LineCalculator
