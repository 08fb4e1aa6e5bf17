import LineCalculator.Proofs.Reading.Language
import LineCalculator.Proofs.Scanning.Words

/-!
# Printing with the fewest brackets

An expression is printed as words with single spaces between them, and with brackets only
where reading would otherwise group differently.  What is printed is read as the
expression, without a report (`parse_print`).

## Where brackets are needed

An operand stands in brackets if it is an assignment or if its operator binds more loosely
than the place asks for: to the left of an operator its own level, to the right the level
behind it, because operators group to the left, and behind a unary operator the level
behind all of them (`Expr.bindsLooser`).  A value that is assigned and an argument stand in
no brackets.  The one other pair of brackets is around a variable that would end the
session if it stood alone.

## What is printed of a number

The value of a literal does not determine its text, so a printed expression is a list of
words in which a numeral stands for every text that has its value (`Word.IsText`).
-/

namespace LineCalculator

open Grammar

/-! ## The printer -/

/-- How a unary operator is spelled. -/
def UnaryOp.symbol : UnaryOp → List Char
  | negate => ['-']
  | complement => ['!']

/-- A word of a printed expression. -/
inductive Word where
  /-- Some characters. -/
  | fixed (text : List Char)
  /-- A number with a value. -/
  | numeral (value : Binary64)

/-- A text is what a word prescribes. -/
def Word.IsText : Word → List Char → Prop
  | fixed chars, text => text = chars
  | numeral value, text => Head.IsNumeral text value

/-- Words in brackets, if asked for. -/
def enclosed (brackets : Bool) (words : List Word) : List Word :=
  if brackets then .fixed ['('] :: (words ++ [.fixed [')']]) else words

namespace Expr

/-- Whether an expression is an assignment or has an operator of a looser level. -/
def bindsLooser (level : Nat) : Expr → Bool
  | assign _ _ => true
  | binary op _ _ => op.level < level
  | _ => false

mutual

/-- The words of an expression. -/
def print : Expr → List Word
  | literal value => [.numeral value]
  | var name => [.fixed name.toList]
  | unary op operand =>
    .fixed op.symbol :: enclosed (operand.bindsLooser BinaryOp.levels) operand.print
  | binary op left right =>
    enclosed (left.bindsLooser op.level) left.print ++
      .fixed op.symbol :: enclosed (right.bindsLooser (op.level + 1)) right.print
  | assign name value => .fixed name.toList :: .fixed ['='] :: value.print
  | call name arguments =>
    .fixed name.toList :: .fixed ['('] :: (printArguments arguments ++ [.fixed [')']])

/-- The words of the arguments of a call. -/
def printArguments : List Expr → List Word
  | [] => []
  | [e] => e.print
  | e :: rest => e.print ++ .fixed [','] :: printArguments rest

end

/-- Whether an expression is a variable that would end the session if it stood alone. -/
def isExitWord : Expr → Bool
  | var name => Reader.exitWords.contains name
  | _ => false

/-- The words of a whole line. -/
def printLine (e : Expr) : List Word := enclosed e.isExitWord e.print

/-- A text is an expression as it is printed. -/
def IsPrinted (e : Expr) (text : String) : Prop :=
  ∃ texts, List.Forall₂ Word.IsText e.printLine texts ∧ text = String.ofList (joined texts)

/-- An expression can be printed: its names are names and its literals are values of
numbers. -/
inductive Printable : Expr → Prop
  | literal {value : Binary64} (hvalue : ∃ text, Head.IsNumeral text value) :
      Printable (literal value)
  | var {name : String} (hname : Head.IsName name.toList) : Printable (var name)
  | unary {op : UnaryOp} {operand : Expr} (hoperand : Printable operand) :
      Printable (unary op operand)
  | binary {op : BinaryOp} {left right : Expr} (hleft : Printable left)
      (hright : Printable right) : Printable (binary op left right)
  | assign {name : String} {value : Expr} (hname : Head.IsName name.toList)
      (hvalue : Printable value) : Printable (assign name value)
  | call {name : String} {arguments : List Expr} (hname : Head.IsName name.toList)
      (harguments : ∀ e ∈ arguments, Printable e) : Printable (call name arguments)

end Expr

/-! ## Words have texts, and their texts are tokens -/

namespace Word

/-- A word has a text, and each of its texts is a token. -/
def Proper (word : Word) : Prop :=
  (∃ text, word.IsText text) ∧ ∀ text, word.IsText text → ∃ t, Head.Spells text t

theorem proper_fixed {text : List Char} (h : ∃ t, Head.Spells text t) : (fixed text).Proper :=
  ⟨⟨text, rfl⟩, fun _ htext => htext ▸ h⟩

theorem proper_sign {text : List Char} {kind : TokenKind} (h : Head.IsSign text kind) :
    (fixed text).Proper := proper_fixed h.exists_spells

theorem proper_name {text : List Char} (h : Head.IsName text) : (fixed text).Proper :=
  proper_fixed h.exists_spells

theorem proper_numeral {value : Binary64} (h : ∃ text, Head.IsNumeral text value) :
    (numeral value).Proper := ⟨h, fun _ htext => htext.exists_spells⟩

/-- A token is a text of a word. -/
def Gives (word : Word) (t : Token) : Prop := ∃ text, word.IsText text ∧ Head.Spells text t

theorem Gives.kind_of_sign {text : List Char} {kind : TokenKind} {t : Token}
    (h : (fixed text).Gives t) (hsign : Head.IsSign text kind) : t.kind = kind := by
  obtain ⟨_, rfl, ht⟩ := h
  exact hsign.of_spells ht

theorem Gives.name {name : String} {t : Token} (h : (fixed name.toList).Gives t)
    (hname : Head.IsName name.toList) : t.kind = .identifier ∧ t.lexeme = name := by
  obtain ⟨_, rfl, ht⟩ := h
  obtain ⟨hkind, hlexeme⟩ := hname.of_spells ht
  exact ⟨hkind, String.toList_inj.1 hlexeme⟩

theorem Gives.numeral {value : Binary64} {t : Token} (h : (numeral value).Gives t) :
    t.kind = .number ∧ t.value? = some value := by
  obtain ⟨text, htext, ht⟩ := h
  exact htext.of_spells ht

end Word

/-- A unary operator is printed as a token that stands for it. -/
theorem UnaryOp.exists_isSign (op : UnaryOp) :
    ∃ kind : TokenKind, Head.IsSign op.symbol kind ∧ kind.unary? = some op := by
  cases op with
  | negate => exact ⟨_, Head.isSign_symbol .subtract, rfl⟩
  | complement => exact ⟨_, Head.isSign_bang, rfl⟩

theorem proper_enclosed {brackets : Bool} {words : List Word} (h : ∀ word ∈ words, word.Proper) :
    ∀ word ∈ enclosed brackets words, word.Proper := by
  have hbra := Word.proper_sign Head.isSign_openBracket
  have hket := Word.proper_sign Head.isSign_closeBracket
  cases brackets with
  | false => exact h
  | true => simpa [enclosed, or_imp, forall_and, hbra, hket] using h

theorem Expr.proper_printArguments {arguments : List Expr}
    (h : ∀ e ∈ arguments, ∀ word ∈ e.print, word.Proper) :
    ∀ word ∈ printArguments arguments, word.Proper := by
  induction arguments with
  | nil => simp [printArguments]
  | cons e rest ih =>
    have he := h e List.mem_cons_self
    have hrest := ih fun other hother => h other (List.mem_cons_of_mem e hother)
    have hcomma := Word.proper_sign Head.isSign_comma
    cases rest with
    | nil => simpa [printArguments] using he
    | cons other rest => simpa [printArguments, or_imp, forall_and, hcomma] using ⟨he, hrest⟩

/-- All words of an expression that can be printed are proper. -/
theorem Expr.Printable.proper {e : Expr} (h : e.Printable) : ∀ word ∈ e.print, word.Proper := by
  induction h with
  | literal hvalue => simpa [print] using Word.proper_numeral hvalue
  | var hname => simpa [print] using Word.proper_name hname
  | @unary op operand hoperand ih =>
    obtain ⟨kind, hsign, -⟩ := op.exists_isSign
    have hword := Word.proper_sign hsign
    simpa [print, hword] using proper_enclosed ih
  | @binary op left right hleft hright ihleft ihright =>
    have hword := Word.proper_sign (Head.isSign_symbol op)
    simpa [print, or_imp, forall_and, hword] using
      ⟨proper_enclosed ihleft, proper_enclosed ihright⟩
  | assign hname hvalue ih =>
    have hword := Word.proper_name hname
    have hequals := Word.proper_sign Head.isSign_equals
    simpa [print, hword, hequals] using ih
  | call hname harguments ih =>
    have hword := Word.proper_name hname
    have hbra := Word.proper_sign Head.isSign_openBracket
    have hket := Word.proper_sign Head.isSign_closeBracket
    simpa [print, or_imp, forall_and, hword, hbra, hket] using proper_printArguments ih

/-! ## What is printed derives the expression -/

namespace Grammar

/-- A run of operators goes on with one more. -/
theorem Links.snoc {level : Nat} {left e right : Expr} {ts operand : List Token} {t : Token}
    {op : BinaryOp} (h : Links level left ts e) (ht : t.kind = .operator op)
    (hop : op.level = level) (hoperand : Operation (level + 1) operand right) :
    Links level left (ts ++ t :: operand) (.binary op e right) := by
  -- the rules are mutually inductive, so the induction is on the length of the run
  induction hn : ts.length using Nat.strongRecOn generalizing left ts with
  | ind n ih =>
    cases h with
    | nil =>
      have hlast : Links level e (t :: (operand ++ [])) (.binary op e right) :=
        .cons ht hop hoperand .nil
      rwa [List.append_nil] at hlast
    | @cons _ t' op' operand' rest _ right' _ ht' hop' hoperand' hrest =>
      have hlt : rest.length < n := by
        rw [← hn, List.length_cons, List.length_append]
        omega
      rw [List.cons_append, List.append_assoc]
      exact .cons ht' hop' hoperand' (ih _ hlt hrest rfl)

/-- An operator groups to the left. -/
theorem Operation.snoc {level : Nat} {left right : Expr} {ts operand : List Token} {t : Token}
    {op : BinaryOp} (h : Operation level ts left) (ht : t.kind = .operator op)
    (hop : op.level = level) (hoperand : Operation (level + 1) operand right) :
    Operation level (ts ++ t :: operand) (.binary op left right) := by
  cases h with
  | chain hlevel hfirst hlinks =>
    rw [List.append_assoc]
    exact .chain hlevel hfirst (hlinks.snoc ht hop hoperand)
  | signed hlevel => exact absurd op.level_lt_levels (by omega)

/-- An operation of a level is one of every looser level. -/
theorem Operation.of_le {level level' : Nat} {ts : List Token} {e : Expr}
    (h : Operation level' ts e) (hlevel : level ≤ level') : Operation level ts e := by
  induction hlevel with
  | refl => exact h
  | @step level' hle ih =>
    refine ih ?_
    by_cases hlt : level' < BinaryOp.levels
    · have hchain := Operation.chain hlt h .nil
      rwa [List.append_nil] at hchain
    · cases h with
      | chain hlt' => exact absurd hlt' (by omega)
      | signed _ hmarks hprimary => exact .signed (by omega) hmarks hprimary

theorem Operation.unary {ts : List Token} {e : Expr} {t : Token} {op : UnaryOp}
    (h : Operation BinaryOp.levels ts e) (ht : t.kind.unary? = some op) :
    Operation BinaryOp.levels (t :: ts) (.unary op e) := by
  cases h with
  | chain hlt => exact absurd hlt (Nat.lt_irrefl _)
  | signed hlevel hmarks hprimary => exact .signed hlevel (.cons ht hmarks) hprimary

end Grammar

/-- Texts of words one after the other are texts of the first and of the others. -/
theorem exists_append_of_forall₂ {words words' : List Word} {ts : List Token}
    (h : List.Forall₂ Word.Gives (words ++ words') ts) :
    ∃ us vs, ts = us ++ vs ∧ List.Forall₂ Word.Gives words us ∧
      List.Forall₂ Word.Gives words' vs := by
  refine ⟨ts.take words.length, ts.drop words.length, (List.take_append_drop _ _).symm, ?_, ?_⟩
  · simpa using List.forall₂_take words.length h
  · simpa using List.forall₂_drop words.length h

/-- A text of one word is one token. -/
theorem exists_of_forall₂_singleton {word : Word} {ts : List Token}
    (h : List.Forall₂ Word.Gives [word] ts) : ∃ t, ts = [t] ∧ word.Gives t := by
  obtain ⟨t, rest, ht, hrest, rfl⟩ := List.forall₂_cons_left_iff.1 h
  obtain rfl := List.forall₂_nil_left_iff.1 hrest
  exact ⟨t, rfl, ht⟩

/-- Texts of words in brackets are texts of the words in brackets. -/
theorem exists_brackets_of_forall₂ {words : List Word} {ts : List Token}
    (h : List.Forall₂ Word.Gives (enclosed true words) ts) :
    ∃ bra us ket, ts = bra :: (us ++ [ket]) ∧ bra.kind = .openBracket ∧
      List.Forall₂ Word.Gives words us ∧ ket.kind = .closeBracket := by
  obtain ⟨bra, vs, hbra, hvs, rfl⟩ := List.forall₂_cons_left_iff.1 h
  obtain ⟨us, kets, rfl, hus, hkets⟩ := exists_append_of_forall₂ hvs
  obtain ⟨ket, rfl, hket⟩ := exists_of_forall₂_singleton hkets
  exact ⟨bra, us, ket, rfl, hbra.kind_of_sign Head.isSign_openBracket, hus,
    hket.kind_of_sign Head.isSign_closeBracket⟩

namespace Expr

/-- Some tokens derive an expression, also as an operation of every level at which it needs
no brackets. -/
structure Derived (e : Expr) (ts : List Token) : Prop where
  expression : Expression ts e
  operation : ∀ level, e.bindsLooser level = false → Operation level ts e

theorem Derived.of_operation {e : Expr} {ts : List Token} (hnone : e.bindsLooser 0 = false)
    (h : ∀ level, e.bindsLooser level = false → Operation level ts e) : e.Derived ts where
  expression := .operation (h 0 hnone)
  operation := h

theorem Derived.of_primary {e : Expr} {ts : List Token} (hnone : e.bindsLooser 0 = false)
    (h : Primary ts e) : e.Derived ts :=
  .of_operation hnone fun level _ => .of_primary h level

/-- In brackets where they are needed, an expression is an operation of the level asked
for. -/
theorem operation_enclosed {e : Expr} {level : Nat} {ts : List Token}
    (hderived : ∀ us, List.Forall₂ Word.Gives e.print us → e.Derived us)
    (h : List.Forall₂ Word.Gives (enclosed (e.bindsLooser level) e.print) ts) :
    Operation level ts e := by
  cases hlooser : e.bindsLooser level with
  | false =>
    rw [hlooser] at h
    exact (hderived ts h).operation level hlooser
  | true =>
    rw [hlooser] at h
    obtain ⟨bra, us, ket, rfl, hbra, hus, hket⟩ := exists_brackets_of_forall₂ h
    exact .of_primary (.bracketed hbra (hderived us hus).expression hket) level

/-- The arguments of a call are derived with the closing bracket. -/
theorem argumentList_printArguments {arguments : List Expr} {ts : List Token} {ket : Token}
    (hne : arguments ≠ [])
    (hderived : ∀ e ∈ arguments, ∀ us, List.Forall₂ Word.Gives e.print us → e.Derived us)
    (h : List.Forall₂ Word.Gives (printArguments arguments) ts) (hket : ket.kind = .closeBracket) :
    ArgumentList (ts ++ [ket]) arguments := by
  induction arguments generalizing ts with
  | nil => exact absurd rfl hne
  | cons e rest ih =>
    have he := hderived e List.mem_cons_self
    cases rest with
    | nil =>
      rw [printArguments] at h
      exact .last (he ts h).expression hket
    | cons other rest =>
      rw [printArguments] at h
      · obtain ⟨us, vs, rfl, hus, hvs⟩ := exists_append_of_forall₂ h
        obtain ⟨comma, more, hcomma, hmore, rfl⟩ := List.forall₂_cons_left_iff.1 hvs
        have hlater := ih (List.cons_ne_nil _ _)
          (fun e he => hderived e (List.mem_cons_of_mem _ he)) hmore
        rw [List.append_assoc]
        exact .next (he us hus).expression (hcomma.kind_of_sign Head.isSign_comma) hlater
      · exact List.cons_ne_nil _ _

/-- **Tokens of the words of an expression derive it.** -/
theorem Printable.derived {e : Expr} (h : e.Printable) :
    ∀ ts, List.Forall₂ Word.Gives e.print ts → e.Derived ts := by
  induction h with
  | literal hvalue =>
    intro ts hts
    rw [print] at hts
    obtain ⟨t, rfl, ht⟩ := exists_of_forall₂_singleton hts
    obtain ⟨hkind, hvalue⟩ := ht.numeral
    exact .of_primary rfl (.number hkind hvalue)
  | @var name hname =>
    intro ts hts
    rw [print] at hts
    obtain ⟨t, rfl, ht⟩ := exists_of_forall₂_singleton hts
    obtain ⟨hkind, rfl⟩ := ht.name hname
    exact .of_primary rfl (.name hkind)
  | @unary op operand hoperand ih =>
    intro ts hts
    rw [print] at hts
    obtain ⟨t, us, ht, hus, rfl⟩ := List.forall₂_cons_left_iff.1 hts
    obtain ⟨kind, hsign, hunary⟩ := op.exists_isSign
    have hmark : t.kind.unary? = some op := by rw [ht.kind_of_sign hsign, hunary]
    -- behind all levels the operand is a signed primary, and so is the whole
    have hoperation := (operation_enclosed ih hus).unary hmark
    refine .of_operation rfl fun level _ => ?_
    rcases Nat.le_total level BinaryOp.levels with hle | hle
    · exact hoperation.of_le hle
    · exact hoperation.of_levels_le hle
  | @binary op left right hleft hright ihleft ihright =>
    intro ts hts
    rw [print] at hts
    obtain ⟨us, vs, rfl, hus, hvs⟩ := exists_append_of_forall₂ hts
    obtain ⟨t, ws, ht, hws, rfl⟩ := List.forall₂_cons_left_iff.1 hvs
    have hoperation := (operation_enclosed ihleft hus).snoc
      (ht.kind_of_sign (Head.isSign_symbol op)) rfl (operation_enclosed ihright hws)
    refine .of_operation (by simp [bindsLooser]) fun level hlevel => hoperation.of_le ?_
    simpa [bindsLooser] using hlevel
  | @assign name value hname hvalue ih =>
    intro ts hts
    rw [print] at hts
    obtain ⟨t, us, ht, hus, rfl⟩ := List.forall₂_cons_left_iff.1 hts
    obtain ⟨equals, vs, hequals, hvs, rfl⟩ := List.forall₂_cons_left_iff.1 hus
    obtain ⟨hkind, rfl⟩ := ht.name hname
    refine ⟨?_, fun level hlevel => by simp [bindsLooser] at hlevel⟩
    have htarget : Operation 0 [t] (.var t.lexeme) := .of_primary (.name hkind) 0
    exact .assign htarget (hequals.kind_of_sign Head.isSign_equals) (ih vs hvs).expression
  | @call name arguments hname harguments ih =>
    intro ts hts
    rw [print] at hts
    obtain ⟨t, us, ht, hus, rfl⟩ := List.forall₂_cons_left_iff.1 hts
    obtain ⟨bra, ws, ket, rfl, hopen, hws, hclose⟩ := exists_brackets_of_forall₂ hus
    obtain ⟨hkind, rfl⟩ := ht.name hname
    by_cases hnone : arguments = []
    · subst hnone
      rw [printArguments] at hws
      obtain rfl := List.forall₂_nil_left_iff.1 hws
      exact .of_primary rfl (.callWithout hkind hopen hclose)
    · exact .of_primary rfl
        (.call hkind hopen (argumentList_printArguments hnone ih hws hclose))

/-! ## Whole lines -/

theorem isWord_of_kind_ne {words : List String} {t : Token} (h : t.kind ≠ .identifier) :
    Reader.isWord words t = false := by
  simp [Reader.isWord, h]

/-- A token that is an expression without brackets ends no session if the expression is no
word that does. -/
theorem Printable.isWord_eq_false {e : Expr} {t : Token} (h : e.Printable)
    (ht : List.Forall₂ Word.Gives e.print [t]) (hexit : e.isExitWord = false) :
    Reader.isWord Reader.exitWords t = false := by
  cases h with
  | literal hvalue =>
    rw [print] at ht
    cases ht with
    | cons ht => exact isWord_of_kind_ne (by simp [ht.numeral.1])
  | @var name hname =>
    rw [print] at ht
    cases ht with
    | cons ht =>
      obtain ⟨-, rfl⟩ := ht.name hname
      simpa [Reader.isWord, isExitWord] using fun _ => by simpa [isExitWord] using hexit
  | @unary op operand hoperand =>
    rw [print] at ht
    cases ht with
    | cons ht =>
      obtain ⟨kind, hsign, hunary⟩ := op.exists_isSign
      refine isWord_of_kind_ne fun hkind => ?_
      rw [← ht.kind_of_sign hsign, hkind] at hunary
      cases hunary
  | @binary op left right hleft hright =>
    rw [print] at ht
    obtain ⟨us, vs, hts, -, hvs⟩ := exists_append_of_forall₂ ht
    obtain ⟨u, ws, hu, -, rfl⟩ := List.forall₂_cons_left_iff.1 hvs
    -- the only token could be the operator alone, and that is no name
    cases us with
    | nil =>
      cases hts
      exact isWord_of_kind_ne (by simp [hu.kind_of_sign (Head.isSign_symbol op)])
    | cons => simp at hts
  | assign hname hvalue =>
    rw [print] at ht
    cases ht with
    | cons _ hmore => cases hmore
  | call hname harguments =>
    rw [print] at ht
    cases ht with
    | cons _ hmore => cases hmore

/-- Tokens of the words of a printed line are the line. -/
theorem Printable.wholeLine {e : Expr} {ts : List Token} (h : e.Printable)
    (hts : List.Forall₂ Word.Gives e.printLine ts) : WholeLine ts (.expression e) := by
  unfold printLine at hts
  cases hexit : e.isExitWord with
  | false =>
    rw [hexit] at hts
    refine .expression (h.derived ts hts).expression fun t ht => ?_
    subst ht
    exact h.isWord_eq_false hts hexit
  | true =>
    rw [hexit] at hts
    obtain ⟨bra, us, ket, rfl, hbra, hus, hket⟩ := exists_brackets_of_forall₂ hts
    have hprimary : Primary (bra :: (us ++ [ket])) e :=
      .bracketed hbra (h.derived us hus).expression hket
    exact .expression (.operation (.of_primary hprimary 0)) fun t ht => by simp at ht

end Expr

/-! ## Reading what is printed -/

/-- Words that are proper have texts. -/
theorem exists_texts {words : List Word} (h : ∀ word ∈ words, word.Proper) :
    ∃ texts, List.Forall₂ Word.IsText words texts :=
  exists_forall₂ fun word hword => (h word hword).1

/-- The texts of proper words are tokens that the words give. -/
theorem gives_of_texts {words : List Word} {texts : List (List Char)}
    (htexts : List.Forall₂ Word.IsText words texts) (h : ∀ word ∈ words, word.Proper) :
    (∀ text ∈ texts, ∃ t, Head.Spells text t) ∧
      ∀ ts, List.Forall₂ Head.Spells texts ts → List.Forall₂ Word.Gives words ts := by
  induction htexts with
  | nil =>
    refine ⟨by simp, fun ts hts => ?_⟩
    obtain rfl := List.forall₂_nil_left_iff.1 hts
    exact .nil
  | @cons word text words texts htext htexts ih =>
    obtain ⟨hspells, hgives⟩ := ih fun other hother => h other (List.mem_cons_of_mem word hother)
    refine ⟨fun other hother => ?_, fun ts hts => ?_⟩
    · rcases List.mem_cons.1 hother with rfl | hother
      · exact (h word List.mem_cons_self).2 other htext
      · exact hspells other hother
    · obtain ⟨t, us, ht, hus, rfl⟩ := List.forall₂_cons_left_iff.1 hts
      exact .cons ⟨text, htext, ht⟩ (hgives us hus)

/-- **Reading undoes printing.**  An expression that can be printed is printed as some
text, and unless the room for nesting runs out every text that it is printed as is read as
the expression, without a report. -/
theorem parse_print (e : Expr) (h : e.Printable) :
    (∃ text, e.IsPrinted text) ∧
      ∀ text, e.IsPrinted text → .parse .tooDeep ∉ (parse text).diagnostics →
        (parse text).Accepts (.expression e) := by
  have hproper : ∀ word ∈ e.printLine, word.Proper := proper_enclosed h.proper
  refine ⟨?_, ?_⟩
  · obtain ⟨texts, htexts⟩ := exists_texts hproper
    exact ⟨_, texts, htexts, rfl⟩
  · rintro text ⟨texts, htexts, rfl⟩ hroom
    obtain ⟨hspells, hgives⟩ := gives_of_texts htexts hproper
    obtain ⟨hfaults, htokens⟩ := tokenize_joined hspells
    have hline := h.wholeLine (hgives _ htokens)
    have hclear : '\n' ∉ (String.ofList (joined texts)).toList := by
      rw [String.toList_ofList]
      refine newline_notMem_joined fun word hword => ?_
      obtain ⟨t, ht⟩ := hspells word hword
      exact ht.newline_notMem
    have hself := firstLine_eq_self hclear
    rcases hline.accepts hfaults with haccepts | hdeep
    · exact haccepts _ hself
    · exact absurd (hdeep _ hself) hroom

/-- A power of a power to the right of the sign is printed in brackets and read back. -/
theorem parse_print_power :
    (Expr.assign "x" (.binary .power (.var "y") (.binary .power (.var "z")
      (.literal Binary64.one)))).Printable ∧
    .parse .tooDeep ∉ (parse "x = y ** ( z ** 1 )").diagnostics ∧
    (parse "x = y ** ( z ** 1 )").Accepts (.expression (.assign "x" (.binary .power (.var "y")
      (.binary .power (.var "z") (.literal Binary64.one))))) := by
  have hroom : .parse .tooDeep ∉ (parse "x = y ** ( z ** 1 )").diagnostics := by decide +kernel
  have hname : ∀ c, Head.startsName c = true → Head.IsName [c] := fun c hc =>
    ⟨c, [], rfl, hc, by simp⟩
  have hone : Head.IsNumeral ['1'] Binary64.one :=
    ⟨'1', [], .bare, ['1'], rfl, by decide, rfl, rfl, by decide +kernel⟩
  have hprintable : (Expr.assign "x" (.binary .power (.var "y") (.binary .power (.var "z")
      (.literal Binary64.one)))).Printable :=
    .assign (hname 'x' (by decide)) (.binary (.var (hname 'y' (by decide)))
      (.binary (.var (hname 'z' (by decide))) (.literal ⟨['1'], hone⟩)))
  have hprinted : (Expr.assign "x" (.binary .power (.var "y") (.binary .power (.var "z")
      (.literal Binary64.one)))).IsPrinted "x = y ** ( z ** 1 )" := by
    refine ⟨[['x'], ['='], ['y'], ['*', '*'], ['('], ['z'], ['*', '*'], ['1'], [')']], ?_,
      by decide +kernel⟩
    exact .cons rfl (.cons rfl (.cons rfl (.cons rfl (.cons rfl (.cons rfl (.cons rfl
      (.cons hone (.cons rfl .nil))))))))
  exact ⟨hprintable, hroom, (parse_print _ hprintable).2 _ hprinted hroom⟩

end LineCalculator
