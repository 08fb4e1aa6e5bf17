import LineCalculator.Text.Blank
import LineCalculator.Text.Letter
import LineCalculator.Token.Fault

/-!
# The token at the head of a text

Which characters make up the first token of a text, with no regard to where in
its source the text stands.  The first character decides what is read; a name, a
number or an operator then takes as many of the following characters as can
belong to it.

## What belongs to a number

A mark, if the number begins with a zero and a letter of a radix; then digits of
that radix, of which one place may hold a point where the form allows it, with
underscores anywhere between or after them.  The underscores are covered by the
token and are not part of its lexeme.  A mark without digits, and a point alone,
are numbers too as far as the token goes: that they have no value is found when
the value is asked for.

## How far an operator goes

As long as the characters so far are the beginning of some operator.  Every such
beginning is an operator itself, but for the two angle brackets, so this is the
longest operator that the text begins with, and where there is none the text
begins with a lone bracket.
-/

namespace LineCalculator

/-- What some characters are. -/
inductive Head.Content where
  /-- A token with its lexeme. -/
  | token (kind : TokenKind) (form : NumberForm) (lexeme : List Char)
  /-- No token. -/
  | fault (cause : ScanCause)

/-- The head of a text. -/
structure Head where
  /-- What the head is. -/
  content : Head.Content
  /-- The characters of the head, also when they are given up as no token. -/
  span : List Char
  /-- The text after the head. -/
  rest : List Char

namespace Head

/-! ### Character classes -/

/-- Whether a character separates tokens and is none itself. -/
def isSkipped (c : Char) : Bool := c != '\n' && Text.isBlank c

/-- Whether a character may begin a name. -/
def startsName (c : Char) : Bool := c == '_' || Text.isLetter c

/-- Whether a character may go on with a name. -/
def continuesName (c : Char) : Bool := c == '_' || Text.isLetter c || Text.isNumeral c

/-- Whether a character may begin a number. -/
def startsNumber (c : Char) : Bool := c.isDigit || c == '.'

/-- Whether a character is a digit of a radix: of ten or fewer the decimal
digits below it, of sixteen also letters of either case. -/
def isDigitOf (form : NumberForm) (c : Char) : Bool :=
  match form with
  | .bare | .decimal => c.isDigit
  | .binary => c == '0' || c == '1'
  | .octal => decide ('0' ≤ c) && decide (c ≤ '7')
  | .hexadecimal =>
    c.isDigit || (decide ('a' ≤ c) && decide (c ≤ 'f')) || (decide ('A' ≤ c) && decide (c ≤ 'F'))

/-! ### Numbers -/

/-- The form that a number's first characters declare, and the text after its
mark. -/
def splitMark : List Char → NumberForm × List Char
  | '0' :: 'b' :: rest => (.binary, rest)
  | '0' :: 'o' :: rest => (.octal, rest)
  | '0' :: 'd' :: rest => (.decimal, rest)
  | '0' :: 'x' :: rest => (.hexadecimal, rest)
  | text => (.bare, text)

/-- The characters at the head of a text that belong to a number of a form, and
the text after them.  A point is taken while one is still allowed, and then no
other. -/
def splitDigits (form : NumberForm) : (pointAllowed : Bool) → List Char → List Char × List Char
  | _, [] => ([], [])
  | pointAllowed, c :: rest =>
    if c == '_' || isDigitOf form c then
      let split := splitDigits form pointAllowed rest
      (c :: split.1, split.2)
    else if pointAllowed && c == '.' then
      let split := splitDigits form false rest
      (c :: split.1, split.2)
    else ([], c :: rest)

/-- Reads the number that a text begins with. -/
def number (text : List Char) : Head :=
  let marked := splitMark text
  let split := splitDigits marked.1 marked.1.hasPoint marked.2
  ⟨.token .number marked.1 (split.1.filter (· != '_')), marked.1.mark ++ split.1, split.2⟩

/-! ### Operators -/

/-- Whether some operator begins with the given characters. -/
def beginsOperator (taken : List Char) : Bool :=
  TokenKind.operators.any fun entry => taken.isPrefixOf entry.1

/-- Goes on with the characters taken as long as some operator begins with them,
and leaves the text after them. -/
def splitOperator (taken : List Char) : List Char → List Char × List Char
  | [] => (taken, [])
  | c :: rest =>
    if beginsOperator (taken ++ [c]) then splitOperator (taken ++ [c]) rest
    else (taken, c :: rest)

/-- The character that an operator begun with the given characters needs next,
by the first operator of which they are a proper part. -/
def expectedAfter (taken : List Char) : Option Char :=
  TokenKind.operators.findSome? fun entry =>
    if taken.isPrefixOf entry.1 then entry.1[taken.length]? else none

/-- Reads the operator that the given first character begins. -/
def operator (first : Char) (tail : List Char) : Head :=
  let split := splitOperator [first] tail
  match TokenKind.operators.lookup split.1 with
  | some kind => ⟨.token kind .bare split.1, split.1, split.2⟩
  | none =>
    match split.2, expectedAfter split.1 with
    | found :: _, some expected => ⟨.fault (.mismatch expected found), split.1, split.2⟩
    | _, _ => ⟨.fault .endOfInput, split.1, split.2⟩

/-! ### Any token -/

/-- Reads the name that a text begins with. -/
def name (text : List Char) : Head :=
  let span := text.takeWhile continuesName
  ⟨.token .identifier .bare span, span, text.dropWhile continuesName⟩

/-- Reads what a text with the given first character begins with. -/
def read (first : Char) (tail : List Char) : Head :=
  if first = '\n' then ⟨.token .newline .bare [first], [first], tail⟩
  else
    match TokenKind.punctuation.lookup first with
    | some kind => ⟨.token kind .bare [first], [first], tail⟩
    | none =>
      if startsNumber first then number (first :: tail)
      else if startsName first then name (first :: tail)
      else if beginsOperator [first] then operator first tail
      else ⟨.fault (.unexpected first), [first], tail⟩

/-! ### Nothing is lost

The characters of the head and the text after it are the text, and the head is
never empty, so that reading on comes to an end. -/

theorem mark_append_splitMark (text : List Char) :
    (splitMark text).1.mark ++ (splitMark text).2 = text := by
  unfold splitMark
  split <;> rfl

theorem splitDigits_append (form : NumberForm) (pointAllowed : Bool) (text : List Char) :
    (splitDigits form pointAllowed text).1 ++ (splitDigits form pointAllowed text).2 = text := by
  induction text generalizing pointAllowed with
  | nil => rfl
  | cons c rest ih =>
    unfold splitDigits
    split
    · simp [ih]
    · split
      · simp [ih]
      · rfl

theorem splitOperator_append (taken text : List Char) :
    (splitOperator taken text).1 ++ (splitOperator taken text).2 = taken ++ text := by
  induction text generalizing taken with
  | nil => rfl
  | cons c rest ih =>
    unfold splitOperator
    split
    · simp [ih]
    · rfl

theorem length_le_splitOperator (taken text : List Char) :
    taken.length ≤ (splitOperator taken text).1.length := by
  induction text generalizing taken with
  | nil => exact Nat.le_refl _
  | cons c rest ih =>
    unfold splitOperator
    split
    · exact Nat.le_trans (by simp) (ih (taken ++ [c]))
    · exact Nat.le_refl _

theorem span_append_rest (first : Char) (tail : List Char) :
    (read first tail).span ++ (read first tail).rest = first :: tail := by
  unfold read
  split
  · rfl
  · split
    · rfl
    · split
      · simp only [number]
        rw [List.append_assoc, splitDigits_append, mark_append_splitMark]
      · split
        · exact List.takeWhile_append_dropWhile
        · split
          · unfold operator
            have h := splitOperator_append [first] tail
            dsimp only
            split
            · exact h
            · split <;> exact h
          · rfl

theorem span_ne_nil (first : Char) (tail : List Char) : (read first tail).span ≠ [] := by
  unfold read
  split
  · simp
  · split
    · simp
    · split
      · rename_i hstart
        show (splitMark (first :: tail)).1.mark ++ _ ≠ []
        unfold splitMark
        split
        · simp [NumberForm.mark]
        · simp [NumberForm.mark]
        · simp [NumberForm.mark]
        · simp [NumberForm.mark]
        · simp only [startsNumber, Bool.or_eq_true] at hstart
          simp only [NumberForm.mark, List.nil_append, NumberForm.hasPoint]
          unfold splitDigits
          rcases hstart with h | h
          · simp [isDigitOf, h]
          · by_cases hd : first == '_' || isDigitOf .bare first
            · simp [hd]
            · simp [hd, h]
      · split
        · rename_i hname
          have hc : continuesName first = true := by
            simp only [startsName, Bool.or_eq_true] at hname
            simp only [continuesName, Bool.or_eq_true]
            exact Or.inl hname
          simp [name, hc]
        · split
          · have h := length_le_splitOperator [first] tail
            have hne : (splitOperator [first] tail).1 ≠ [] := by
              intro hnil
              rw [hnil] at h
              simp at h
            unfold operator
            dsimp only
            split
            · exact hne
            · split <;> exact hne
          · simp

/-- What is left after the head is shorter than the text. -/
theorem length_rest_lt (first : Char) (tail : List Char) :
    (read first tail).rest.length < (first :: tail).length := by
  have happ := congrArg List.length (span_append_rest first tail)
  have hpos := List.length_pos_iff.2 (span_ne_nil first tail)
  rw [List.length_append] at happ
  omega

end Head

end LineCalculator
