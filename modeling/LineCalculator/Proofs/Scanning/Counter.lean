import LineCalculator.Lookahead
import LineCalculator.Token.Scanner

/-!
# A scanner that counts

A step of a scanner reads a head of its text and then stands behind it.  A scanner can also
be made that looks at one character at a time (`Counter`).  It draws a character and counts
one column up, or hands a character back and counts one column down, and it sees that a
token is over by having drawn one character too many, or two where a zero begins no mark.

A token is drawn by taking one character after the other as long as they go on with it, and
handing back the first that does not (`Counter.drawWhile`).  Names, operators and digits
differ in what goes on with them alone.

What is drawn is taken off the head of the text, and what is handed back is what was drawn
last, so that the columns counted down are those counted up (`Counter.Drawn`).  This holds
for blanks, for whatever is drawn as long as it is accepted, and for the mark of a number
(`Counter.drawn_skipBlanks`, `Counter.drawn_drawWhile`, `Counter.drawn_drawMark`).
-/

namespace LineCalculator

/-- A scanner that draws its characters from a supply and counts its place. -/
structure Counter where
  chars : Lookahead Char
  line : Nat
  column : Nat
  failed : Bool
  exhausted : Bool

namespace Counter

/-! ## Drawing and handing back -/

/-- The characters not read yet, those handed back first. -/
def text (s : Counter) : List Char := s.chars.toList

/-- Draws a character. -/
def draw (s : Counter) : Option Char × Counter :=
  match s.chars.pop with
  | (some c, chars) => (some c, { s with chars, column := s.column + 1 })
  | (none, chars) => (none, { s with chars })

/-- Hands a character back. -/
def handBack (s : Counter) (c : Char) : Counter :=
  { s with chars := s.chars.push c, column := s.column - 1 }

/-- A counter has drawn some characters and counted them. -/
structure Drawn (s : Counter) (read : List Char) (next : Counter) : Prop where
  text : s.text = read ++ next.text
  line : next.line = s.line
  column : next.column = s.column + read.length
  failed : next.failed = s.failed
  exhausted : next.exhausted = s.exhausted

namespace Drawn

variable {s next later : Counter} {read more : List Char} {c : Char}

theorem trans (h : s.Drawn read next) (h' : next.Drawn more later) :
    s.Drawn (read ++ more) later where
  text := by rw [h.text, h'.text, List.append_assoc]
  line := h'.line.trans h.line
  column := by rw [h'.column, h.column, List.length_append, Nat.add_assoc]
  failed := h'.failed.trans h.failed
  exhausted := h'.exhausted.trans h.exhausted

/-- Handing back undoes drawing. -/
theorem handBack (h : s.Drawn (read ++ [c]) next) : s.Drawn read (next.handBack c) where
  text := by rw [h.text, List.append_assoc]; rfl
  line := h.line
  column := by
    show next.column - 1 = _
    rw [h.column, List.length_append, ← Nat.add_assoc]
    rfl
  failed := h.failed
  exhausted := h.exhausted

/-- What has been handed back may be drawn again. -/
theorem again (h : s.Drawn (read ++ [c]) next) : (next.handBack c).Drawn [c] next where
  text := rfl
  line := rfl
  column := by
    show next.column = next.column - 1 + 1
    have hcolumn := h.column
    rw [List.length_append, List.length_singleton] at hcolumn
    omega
  failed := rfl
  exhausted := rfl

theorem handBack_of_singleton (h : s.Drawn [c] next) : s.Drawn [] (next.handBack c) :=
  Drawn.handBack h

theorem length_lt (h : s.Drawn [c] next) : next.text.length < s.text.length := by
  rw [h.text]
  exact Nat.lt_succ_self _

end Drawn

theorem drawn_of_some {s next : Counter} {c : Char} (h : s.draw = (some c, next)) :
    s.Drawn [c] next := by
  have hfirst := s.chars.fst_pop
  have hlater := s.chars.toList_snd_pop
  unfold draw at h
  split at h
  case h_1 c' chars hpop =>
    cases h
    rw [hpop] at hfirst hlater
    obtain ⟨tail, htail⟩ := List.head?_eq_some_iff.1 hfirst.symm
    rw [htail, List.tail_cons] at hlater
    exact ⟨htail.trans (congrArg _ hlater.symm), rfl, rfl, rfl, rfl⟩
  case h_2 => cases h

theorem drawn_of_none {s next : Counter} (h : s.draw = (none, next)) :
    s.Drawn [] next ∧ next.text = [] := by
  have hfirst := s.chars.fst_pop
  have hlater := s.chars.toList_snd_pop
  unfold draw at h
  split at h
  case h_1 => cases h
  case h_2 chars hpop =>
    cases h
    rw [hpop] at hfirst hlater
    have hnil : s.chars.toList = [] := List.head?_eq_none_iff.1 hfirst.symm
    rw [hnil] at hlater
    exact ⟨⟨hnil.trans hlater.symm, rfl, rfl, rfl, rfl⟩, hlater⟩

/-! ## Drawing as long as characters are accepted -/

/-- Draws the blanks in front of a token, and the first character that is none. -/
def skipBlanks (s : Counter) : Option Char × Counter :=
  match _draw : s.draw with
  | (some c, next) => if Head.isSkipped c then skipBlanks next else (some c, next)
  | (none, next) => (none, next)
termination_by s.text.length
decreasing_by exact (drawn_of_some _draw).length_lt

/-- Draws characters as long as they go on with what has been taken so far, and hands the
first other one back.  Yields all that was taken, and what was drawn last. -/
def drawWhile {α : Type} (accept : α → Char → Option α) (taken : α) (s : Counter) :
    α × Option Char × Counter :=
  match _draw : s.draw with
  | (none, next) => (taken, none, next)
  | (some c, next) =>
    match accept taken c with
    | some longer => drawWhile accept longer next
    | none => (taken, some c, next.handBack c)
termination_by s.text.length
decreasing_by exact (drawn_of_some _draw).length_lt

/-- What characters at the head of a text go on with what has been taken so far, and the
text after them. -/
def splitWhile {α : Type} (accept : α → Char → Option α) (taken : α) : List Char → α × List Char
  | [] => (taken, [])
  | c :: rest =>
    match accept taken c with
    | some longer => splitWhile accept longer rest
    | none => (taken, c :: rest)

theorem drawn_skipBlanks (s : Counter) : ∃ blanks, (∀ c ∈ blanks, Head.isSkipped c = true) ∧
    (s.skipBlanks.1 = none ∧ s.Drawn blanks s.skipBlanks.2 ∧ s.skipBlanks.2.text = [] ∨
      ∃ c, s.skipBlanks.1 = some c ∧ s.Drawn (blanks ++ [c]) s.skipBlanks.2 ∧
        Head.isSkipped c = false) := by
  induction s using skipBlanks.induct with
  | case1 s c next hdraw hskip ih =>
    obtain ⟨blanks, hblanks, hend⟩ := ih
    have hdrawn := drawn_of_some hdraw
    have hs : s.skipBlanks = next.skipBlanks := by
      rw [skipBlanks]
      split <;> simp_all
    rw [hs]
    refine ⟨c :: blanks, List.forall_mem_cons.2 ⟨hskip, hblanks⟩, ?_⟩
    rcases hend with ⟨hnone, hlater, hnil⟩ | ⟨d, hsome, hlater, hd⟩
    · exact Or.inl ⟨hnone, hdrawn.trans hlater, hnil⟩
    · exact Or.inr ⟨d, hsome, hdrawn.trans hlater, hd⟩
  | case2 s c next hdraw hskip =>
    have hs : s.skipBlanks = (some c, next) := by
      rw [skipBlanks]
      split <;> simp_all
    rw [hs]
    exact ⟨[], by simp, Or.inr ⟨c, rfl, drawn_of_some hdraw, by simpa using hskip⟩⟩
  | case3 s next hdraw =>
    have hs : s.skipBlanks = (none, next) := by
      rw [skipBlanks]
      split <;> simp_all
    obtain ⟨hdrawn, hnil⟩ := drawn_of_none hdraw
    rw [hs]
    exact ⟨[], by simp, Or.inl ⟨rfl, hdrawn, hnil⟩⟩

/-- Drawing as long as characters are accepted takes them off the head of the text, and no
newline if that is never accepted. -/
theorem drawn_drawWhile {α : Type} {accept : α → Char → Option α}
    (hnewline : ∀ taken, accept taken '\n' = none) (taken : α) (s : Counter) :
    ∃ read, s.Drawn read (s.drawWhile accept taken).2.2 ∧ '\n' ∉ read ∧
      (s.drawWhile accept taken).2.1 = (s.drawWhile accept taken).2.2.text.head? ∧
      splitWhile accept taken s.text =
        ((s.drawWhile accept taken).1, (s.drawWhile accept taken).2.2.text) := by
  induction taken, s using drawWhile.induct accept with
  | case1 taken s next hdraw =>
    have hs : s.drawWhile accept taken = (taken, none, next) := by
      rw [drawWhile]
      split <;> simp_all
    obtain ⟨hdrawn, hnil⟩ := drawn_of_none hdraw
    rw [hs]
    refine ⟨[], hdrawn, by simp, by simp [hnil], ?_⟩
    rw [hdrawn.text, hnil]
    rfl
  | case2 taken s c next hdraw longer haccept ih =>
    have hs : s.drawWhile accept taken = next.drawWhile accept longer := by
      rw [drawWhile]
      split <;> simp_all
    obtain ⟨read, hlater, hclear, hlast, hsplit⟩ := ih
    have hdrawn := drawn_of_some hdraw
    have hc : c ≠ '\n' := by
      rintro rfl
      rw [hnewline] at haccept
      cases haccept
    rw [hs]
    refine ⟨c :: read, hdrawn.trans hlater, by simp [hc.symm, hclear], hlast, ?_⟩
    rw [hdrawn.text, List.singleton_append, splitWhile, haccept]
    exact hsplit
  | case3 taken s c next hdraw haccept =>
    have hs : s.drawWhile accept taken = (taken, some c, next.handBack c) := by
      rw [drawWhile]
      split <;> simp_all
    have hdrawn := drawn_of_some hdraw
    rw [hs]
    refine ⟨[], hdrawn.handBack_of_singleton, by simp, rfl, ?_⟩
    rw [hdrawn.text, List.singleton_append, splitWhile, haccept]
    rfl

/-! ## One step -/

/-- A token that begins in a column and ends where the counter stands. -/
def token (s : Counter) (kind : TokenKind) (form : NumberForm) (lexeme : List Char)
    (start : Nat) : Token :=
  ⟨kind, String.ofList lexeme, form, ⟨s.line, start⟩, s.column - start⟩

/-- A fault in a column. -/
def fail (s : Counter) (cause : ScanCause) (column : Nat) : Scan × Counter :=
  (.fault ⟨cause, ⟨s.line, column⟩⟩, { s with failed := true })

def takeName (name : List Char) (c : Char) : Option (List Char) :=
  if Head.continuesName c then some (name ++ [c]) else none

def scanName (s : Counter) (start : Nat) : Scan × Counter :=
  let (name, _, next) := s.drawWhile takeName []
  (.token (next.token .identifier .bare name start), next)

def takeOperator (symbol : List Char) (c : Char) : Option (List Char) :=
  if Head.beginsOperator (symbol ++ [c]) then some (symbol ++ [c]) else none

/-- Reads an operator of which the first character has been drawn. -/
def scanOperator (s : Counter) (first : Char) (start : Nat) : Scan × Counter :=
  let (symbol, last, next) := s.drawWhile takeOperator [first]
  match TokenKind.operators.lookup symbol with
  | some kind => (.token (next.token kind .bare symbol start), next)
  | none =>
    match last, Head.expectedAfter symbol with
    | some found, some expected => next.fail (.mismatch expected found) next.column
    | _, _ => next.fail .endOfInput next.column

/-- The form that a letter behind a zero declares. -/
def markForm? : Char → Option NumberForm
  | 'b' => some .binary
  | 'o' => some .octal
  | 'd' => some .decimal
  | 'x' => some .hexadecimal
  | _ => none

/-- Draws the mark of a number.  A zero that begins none is handed back, after the character
behind it. -/
def drawMark (s : Counter) : NumberForm × Counter :=
  match s.draw with
  | (none, next) => (.bare, next)
  | (some c, zero) =>
    if c = '0' then
      match zero.draw with
      | (none, next) => (.bare, next.handBack c)
      | (some letter, next) =>
        match markForm? letter with
        | some form => (form, next)
        | none => (.bare, (next.handBack letter).handBack c)
    else (.bare, zero.handBack c)

/-- Takes a character into the digits of a number, and says whether a point may still
follow. -/
def takeDigit (form : NumberForm) (digits : Bool × List Char) (c : Char) :
    Option (Bool × List Char) :=
  if c = '_' then some digits
  else if Head.isDigitOf form c then some (digits.1, digits.2 ++ [c])
  else if digits.1 && c == '.' then some (false, digits.2 ++ [c])
  else none

def scanNumber (s : Counter) (start : Nat) : Scan × Counter :=
  let (form, marked) := s.drawMark
  let ((_, digits), _, next) := marked.drawWhile (takeDigit form) (form.hasPoint, [])
  (.token (next.token .number form digits start), next)

/-- Takes one step. -/
def scan (s : Counter) : Scan × Counter :=
  match s.skipBlanks with
  | (none, s) => (.finished, { s with exhausted := true })
  | (some c, s) =>
    let start := s.column - 1
    if c = '\n' then
      (.token (s.token .newline .bare [c] start), { s with line := s.line + 1, column := 1 })
    else
      match TokenKind.punctuation.lookup c with
      | some kind => (.token (s.token kind .bare [c] start), s)
      | none =>
        if Head.startsNumber c then (s.handBack c).scanNumber start
        else if Head.startsName c then (s.handBack c).scanName start
        else if Head.beginsOperator [c] then s.scanOperator c start
        else s.fail (.unexpected c) start

/-- A counter at the beginning of a source. -/
def ofText (text : String) : Counter := ⟨.ofList text.toList, 1, 1, false, false⟩

/-- The tokens and faults that a number of steps yield, and the counter after them. -/
def steps (s : Counter) : Nat → List (Except ScanFault Token) × Counter
  | 0 => ([], s)
  | n + 1 =>
    match s.scan with
    | (.token t, next) => (.ok t :: (next.steps n).1, (next.steps n).2)
    | (.fault f, next) => (.error f :: (next.steps n).1, (next.steps n).2)
    | (.finished, next) => next.steps n

/-! ## Marks -/

section SplitMark

variable {c letter : Char} {form : NumberForm}

theorem splitMark_of_some (h : markForm? letter = some form) (rest : List Char) :
    form.mark = ['0', letter] ∧ Head.splitMark ('0' :: letter :: rest) = (form, rest) := by
  unfold markForm? at h
  split at h
  all_goals
    cases h
    try exact ⟨rfl, rfl⟩

theorem splitMark_of_none (h : markForm? letter = none) (rest : List Char) :
    Head.splitMark ('0' :: letter :: rest) = (.bare, '0' :: letter :: rest) := by
  unfold Head.splitMark
  split <;> simp_all [markForm?]

theorem splitMark_of_ne (h : c ≠ '0') (rest : List Char) :
    Head.splitMark (c :: rest) = (.bare, c :: rest) := by
  unfold Head.splitMark
  split <;> simp_all

end SplitMark

/-- What is drawn of a mark is the mark. -/
theorem drawn_drawMark (s : Counter) : s.Drawn s.drawMark.1.mark s.drawMark.2 ∧
    Head.splitMark s.text = (s.drawMark.1, s.drawMark.2.text) := by
  unfold drawMark
  split
  case h_1 next hdraw =>
    obtain ⟨hdrawn, hnil⟩ := drawn_of_none hdraw
    refine ⟨hdrawn, ?_⟩
    rw [hdrawn.text, hnil]
    rfl
  case h_2 c zero hdraw =>
    have hzero := drawn_of_some hdraw
    split
    case isFalse hc =>
      refine ⟨hzero.handBack_of_singleton, ?_⟩
      rw [hzero.text]
      exact splitMark_of_ne hc zero.text
    case isTrue hc =>
      subst hc
      split
      case h_1 next hdraw' =>
        obtain ⟨hdrawn, hnil⟩ := drawn_of_none hdraw'
        refine ⟨(hzero.trans hdrawn).handBack_of_singleton, ?_⟩
        rw [hzero.text, hdrawn.text, hnil]
        show _ = (NumberForm.bare, '0' :: next.text)
        rw [hnil]
        rfl
      case h_2 letter next hdraw' =>
        have hletter := hzero.trans (drawn_of_some hdraw')
        rw [hletter.text]
        split
        case h_1 form hform =>
          obtain ⟨hmark, hsplit⟩ := splitMark_of_some hform next.text
          exact ⟨hmark ▸ hletter, hsplit⟩
        case h_2 hform =>
          exact ⟨hletter.handBack.handBack_of_singleton, splitMark_of_none hform next.text⟩

end Counter

end LineCalculator
