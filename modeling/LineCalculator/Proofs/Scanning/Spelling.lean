import Mathlib.Data.List.Infix
import LineCalculator.Token.Scanner

/-!
# Tokens without a place and how they are spelled

A token without its place is a kind, the form of a number, and a lexeme.  Not every such
triple comes of a text.  A sign has the lexeme that its table gives it, a name begins with
a character that may begin one, and a number is made of the digits of its form and of a
point where the form allows it (`Unplaced.WellFormed`).

A token is spelled as its lexeme.  Only numbers have more spellings than one: the mark of
the form comes first, and underscores may stand between the digits and behind them
(`Unplaced.Spelling`).

## What a head is

The head of a text is one of three things (`Head.reads_read`): a spelling of a token; a
character that begins no token; or an angle bracket that is not doubled.  So what is given
up is always one character, and which fault it is depends on the character behind an
angle bracket alone.
-/

namespace LineCalculator

/-- What a token is, with no regard to where it stands. -/
structure Unplaced where
  kind : TokenKind
  form : NumberForm
  lexeme : List Char
  deriving DecidableEq

namespace TokenKind

theorem punctuation_ne_number : ∀ entry ∈ punctuation, entry.2 ≠ .number := by decide

theorem operators_ne_number : ∀ entry ∈ operators, entry.2 ≠ .number := by decide

theorem punctuation_ne_newline : ∀ entry ∈ punctuation, entry.2 ≠ .newline := by decide

theorem operators_ne_newline : ∀ entry ∈ operators, entry.2 ≠ .newline := by decide

end TokenKind

/-- What is left of a token without its place and its length. -/
def Token.unplaced (t : Token) : Unplaced := ⟨t.kind, t.form, t.lexeme.toList⟩

namespace Unplaced

/-- A token is one of the language. -/
inductive WellFormed : Unplaced → Prop
  | newline : WellFormed ⟨.newline, .bare, ['\n']⟩
  | punctuation {c : Char} {kind : TokenKind} (entry : (c, kind) ∈ TokenKind.punctuation) :
      WellFormed ⟨kind, .bare, [c]⟩
  | operator {symbol : List Char} {kind : TokenKind}
      (entry : (symbol, kind) ∈ TokenKind.operators) : WellFormed ⟨kind, .bare, symbol⟩
  | name {first : Char} {tail : List Char} (start : Head.startsName first = true)
      (continues : ∀ c ∈ tail, Head.continuesName c = true) :
      WellFormed ⟨.identifier, .bare, first :: tail⟩
  /-- A number may lack digits, but one without a mark has a digit or a point. -/
  | number {form : NumberForm} {lexeme : List Char}
      (digits : ∀ c ∈ lexeme, Head.isDigitOf form c = true ∨ c = '.')
      (once : lexeme.count '.' ≤ 1) (allowed : '.' ∈ lexeme → form.hasPoint = true)
      (shown : form = .bare → lexeme ≠ []) : WellFormed ⟨.number, form, lexeme⟩

/-- Some characters spell a token. -/
inductive Spelling : Unplaced → List Char → Prop
  | lexeme {u : Unplaced} (kind : u.kind ≠ .number) : Spelling u u.lexeme
  /-- Underscores may stand among the characters of a number, behind its mark if it has
  one and behind its first character if it has none. -/
  | number {u : Unplaced} {body : List Char} (kind : u.kind = .number)
      (lexeme : body.filter (· != '_') = u.lexeme)
      (first : u.form = .bare → body.head? ≠ some '_') : Spelling u (u.form.mark ++ body)

/-- A newline is spelled with a newline. -/
theorem WellFormed.newline_mem {u : Unplaced} {text : List Char} (hu : u.WellFormed)
    (htext : u.Spelling text) (hkind : u.kind = .newline) : '\n' ∈ text := by
  cases htext with
  | number kind => cases hkind.symm.trans kind
  | lexeme =>
    cases hu with
    | newline => exact List.mem_cons_self
    | punctuation entry => exact absurd hkind (TokenKind.punctuation_ne_newline _ entry)
    | operator entry => exact absurd hkind (TokenKind.operators_ne_newline _ entry)
    | name => cases hkind
    | number => cases hkind

end Unplaced

/-- What is wrong with an angle bracket before some text that does not double it. -/
def ScanCause.afterLone (bracket : Char) : List Char → ScanCause
  | [] => .endOfInput
  | found :: _ => .mismatch bracket found

theorem ScanCause.afterLone_ne_unexpected (bracket : Char) (text : List Char) (c : Char) :
    afterLone bracket text ≠ .unexpected c := by
  cases text <;> simp [afterLone]

namespace Head

/-- What the head of a text can be. -/
inductive Reads (first : Char) (tail : List Char) : Head → Prop
  | token {u : Unplaced} {span rest : List Char} (wellFormed : u.WellFormed)
      (spelling : u.Spelling span) : Reads first tail ⟨.token u.kind u.form u.lexeme, span, rest⟩
  | unexpected (begins : beginsOperator [first] = false) :
      Reads first tail ⟨.fault (.unexpected first), [first], tail⟩
  | lone (bracket : first = '<' ∨ first = '>') :
      Reads first tail ⟨.fault (.afterLone first tail), [first], tail⟩

/-! ### Numbers -/

theorem isDigitOf_point (form : NumberForm) : isDigitOf form '.' = false := by
  cases form <;> decide

theorem isDigitOf_underscore (form : NumberForm) : isDigitOf form '_' = false := by
  cases form <;> decide

theorem mem_splitDigits {form : NumberForm} {pointAllowed : Bool} {text : List Char} {c : Char}
    (h : c ∈ (splitDigits form pointAllowed text).1) :
    c = '_' ∨ isDigitOf form c = true ∨ c = '.' := by
  induction text generalizing pointAllowed with
  | nil => simp [splitDigits] at h
  | cons d rest ih =>
    unfold splitDigits at h
    split at h
    case isTrue hd =>
      rcases List.mem_cons.1 h with rfl | h
      · rcases Bool.or_eq_true_iff.1 hd with hunderscore | hdigit
        · exact Or.inl (beq_iff_eq.1 hunderscore)
        · exact Or.inr (Or.inl hdigit)
      · exact ih h
    case isFalse =>
      split at h
      case isTrue hpoint =>
        rcases List.mem_cons.1 h with rfl | h
        · exact Or.inr (Or.inr (beq_iff_eq.1 (Bool.and_eq_true_iff.1 hpoint).2))
        · exact ih h
      case isFalse => simp at h

/-- A number takes a point only where one is allowed, and then no other. -/
theorem count_point_splitDigits (form : NumberForm) (pointAllowed : Bool) (text : List Char) :
    (splitDigits form pointAllowed text).1.count '.' ≤ pointAllowed.toNat := by
  induction text generalizing pointAllowed with
  | nil => simp [splitDigits]
  | cons c rest ih =>
    unfold splitDigits
    split
    case isTrue hc =>
      have hpoint : c ≠ '.' := by
        rintro rfl
        simp [isDigitOf_point] at hc
      rw [List.count_cons_of_ne hpoint]
      exact ih pointAllowed
    case isFalse =>
      split
      case isTrue hpoint =>
        have hlater : (splitDigits form false rest).1.count '.' = 0 := Nat.le_zero.1 (ih false)
        obtain ⟨hallowed, hc⟩ := Bool.and_eq_true_iff.1 hpoint
        rw [beq_iff_eq.1 hc, List.count_cons_self, hlater, hallowed]
        exact Nat.le_refl 1
      case isFalse => simp

theorem splitMark_bare {text : List Char} (h : (splitMark text).1 = .bare) :
    (splitMark text).2 = text := by
  have happ := mark_append_splitMark text
  rwa [h] at happ

theorem head?_splitDigits {first : Char} {tail : List Char} (h : startsNumber first = true) :
    (splitDigits .bare true (first :: tail)).1.head? = some first := by
  unfold splitDigits
  rcases Bool.or_eq_true_iff.1 h with hdigit | hpoint
  · simp [isDigitOf, hdigit]
  · by_cases hd : (first == '_' || isDigitOf .bare first) = true
    · simp [hd]
    · simp [hd, hpoint]

theorem reads_number {first : Char} (tail : List Char) (h : startsNumber first = true) :
    Reads first tail (number (first :: tail)) := by
  unfold number
  dsimp only
  generalize hform : (splitMark (first :: tail)).1 = form
  generalize hdigits : (splitDigits form form.hasPoint (splitMark (first :: tail)).2).1 = digits
  have hmem : ∀ c ∈ digits, c = '_' ∨ isDigitOf form c = true ∨ c = '.' :=
    fun c hc => mem_splitDigits (hdigits ▸ hc)
  have hcount : digits.count '.' ≤ form.hasPoint.toNat :=
    hdigits ▸ count_point_splitDigits form form.hasPoint _
  -- a number without a mark shows the character that it begins with
  have hbare : form = .bare → digits.head? = some first := by
    rintro rfl
    rw [← hdigits, splitMark_bare hform]
    exact head?_splitDigits h
  have hfirst : first ≠ '_' := by
    rintro rfl
    exact absurd h (by decide)
  have hfilter : (digits.filter (· != '_')).count '.' = digits.count '.' :=
    List.count_filter (by decide)
  refine .token (u := ⟨.number, form, digits.filter (· != '_')⟩)
    (.number (fun c hc => ?_) ?_ (fun hpoint => ?_) fun hform => ?_)
    (.number rfl rfl fun hform => ?_)
  · obtain ⟨hc, hne⟩ := List.mem_filter.1 hc
    exact (hmem c hc).resolve_left (bne_iff_ne.1 hne)
  · rw [hfilter]
    exact hcount.trans form.hasPoint.toNat_le
  · have hpos : 0 < (digits.filter (· != '_')).count '.' := List.count_pos_iff.2 hpoint
    rw [hfilter] at hpos
    cases hhas : form.hasPoint with
    | true => rfl
    | false => simp [hhas] at hcount; omega
  · have hmem : first ∈ digits := List.mem_of_mem_head? (hbare hform)
    exact List.ne_nil_of_mem (List.mem_filter.2 ⟨hmem, bne_iff_ne.2 hfirst⟩)
  · rw [hbare hform]
    simpa using hfirst

/-! ### Operators -/

/-- Reading an operator goes on only with what some operator begins with. -/
theorem beginsOperator_splitOperator {taken : List Char} (text : List Char)
    (h : beginsOperator taken = true) : beginsOperator (splitOperator taken text).1 = true := by
  induction text generalizing taken with
  | nil => exact h
  | cons c rest ih =>
    unfold splitOperator
    split
    case isTrue hc => exact ih hc
    case isFalse => exact h

/-- What some operator begins with is an operator itself but for the angle brackets. -/
theorem lone_of_lookup_eq_none {taken : List Char} (hne : taken ≠ [])
    (hbegins : beginsOperator taken = true) (h : TokenKind.operators.lookup taken = none) :
    taken = ['<'] ∨ taken = ['>'] := by
  have hall : ∀ entry ∈ TokenKind.operators, ∀ taken ∈ entry.1.inits, taken ≠ [] →
      TokenKind.operators.lookup taken = none → taken = ['<'] ∨ taken = ['>'] := by decide
  obtain ⟨entry, hentry, hprefix⟩ := List.any_eq_true.1 hbegins
  exact hall entry hentry taken
    ((List.mem_inits _ _).2 (List.isPrefixOf_iff_prefix.1 hprefix)) hne h

theorem expectedAfter_lone {bracket : Char} (h : bracket = '<' ∨ bracket = '>') :
    expectedAfter [bracket] = some bracket := by
  rcases h with rfl | rfl <;> decide

theorem mem_of_lookup {α β : Type} [BEq α] [LawfulBEq α] {entries : List (α × β)} {a : α} {b : β}
    (h : entries.lookup a = some b) : (a, b) ∈ entries := by
  obtain ⟨l₁, l₂, hentries, -⟩ := List.lookup_eq_some_iff.1 h
  rw [hentries]
  exact List.mem_append_right l₁ List.mem_cons_self

theorem reads_operator {first : Char} (tail : List Char) (h : beginsOperator [first] = true) :
    Reads first tail (operator first tail) := by
  have happ := splitOperator_append [first] tail
  have hlength := length_le_splitOperator [first] tail
  have hbegins := beginsOperator_splitOperator tail h
  unfold operator
  generalize splitOperator [first] tail = split at happ hlength hbegins ⊢
  obtain ⟨taken, rest⟩ := split
  dsimp only at happ hlength hbegins ⊢
  cases hlookup : TokenKind.operators.lookup taken with
  | some kind =>
    have hentry := mem_of_lookup hlookup
    exact .token (.operator hentry) (.lexeme (TokenKind.operators_ne_number _ hentry))
  | none =>
    have hne : taken ≠ [] := by
      rintro rfl
      simp at hlength
    have hlone := lone_of_lookup_eq_none hne hbegins hlookup
    have hfirst : taken = [first] ∧ rest = tail ∧ (first = '<' ∨ first = '>') := by
      rcases hlone with rfl | rfl
      · cases happ
        exact ⟨rfl, rfl, Or.inl rfl⟩
      · cases happ
        exact ⟨rfl, rfl, Or.inr rfl⟩
    obtain ⟨rfl, rfl, hbracket⟩ := hfirst
    rw [expectedAfter_lone hbracket]
    cases rest with
    | nil => exact .lone hbracket
    | cons found rest => exact .lone hbracket

/-! ### Any head -/

theorem reads_name {first : Char} (tail : List Char) (h : startsName first = true) :
    Reads first tail (name (first :: tail)) := by
  have hfirst : continuesName first = true := by
    unfold continuesName
    exact Bool.or_eq_true_iff.2 (Or.inl h)
  unfold name
  rw [List.takeWhile_cons_of_pos hfirst]
  exact .token (u := ⟨.identifier, .bare, first :: tail.takeWhile continuesName⟩)
    (.name h fun c hc => List.all_eq_true.1 List.all_takeWhile c hc) (.lexeme (by simp))

/-- **The head of a text is a spelling of a token, or one character and why it is none.** -/
theorem reads_read (first : Char) (tail : List Char) : Reads first tail (read first tail) := by
  unfold read
  split
  case isTrue hnewline =>
    subst hnewline
    exact .token .newline (.lexeme (by simp))
  case isFalse =>
    cases hlookup : TokenKind.punctuation.lookup first with
    | some kind =>
      have hentry := mem_of_lookup hlookup
      exact .token (.punctuation hentry) (.lexeme (TokenKind.punctuation_ne_number _ hentry))
    | none =>
      dsimp only
      by_cases hnumber : startsNumber first = true
      · rw [if_pos hnumber]
        exact reads_number tail hnumber
      · rw [if_neg hnumber]
        by_cases hname : startsName first = true
        · rw [if_pos hname]
          exact reads_name tail hname
        · rw [if_neg hname]
          by_cases hop : beginsOperator [first] = true
          · rw [if_pos hop]
            exact reads_operator tail hop
          · rw [if_neg hop]
            exact .unexpected (Bool.not_eq_true _ ▸ hop)

end Head

end LineCalculator
