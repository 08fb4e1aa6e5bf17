import LineCalculator.Token.Head

/-!
# Scanning a source

A scanner is a source text with a place in it.  One step skips the blanks in
front of the next token and reads that token, or gives up characters that are
none and says why, or finds that nothing is left.  It goes on after a fault as
if nothing had happened; that there was one is kept in a flag.

## Two ways of going on

`pieces` goes through the whole source and yields faults and tokens in the order
of the text.  `iterate` stops where a step yields no token, be it a fault or the
end, and hands back the scanner as it then is.  Both end because every step that
does not finish the source takes at least one character from it.
-/

namespace LineCalculator

namespace Position

/-- The place before the first character of a source. -/
def start : Position := ⟨1, 1⟩

/-- The place after a character. -/
def next (p : Position) (c : Char) : Position :=
  if c = '\n' then ⟨p.line + 1, 1⟩ else ⟨p.line, p.column + 1⟩

/-- The place after some characters. -/
def advance (p : Position) (text : List Char) : Position := text.foldl next p

@[simp] theorem advance_nil (p : Position) : p.advance [] = p := rfl

@[simp] theorem advance_cons (p : Position) (c : Char) (text : List Char) :
    p.advance (c :: text) = (p.next c).advance text := rfl

@[simp] theorem advance_append (p : Position) (first second : List Char) :
    p.advance (first ++ second) = (p.advance first).advance second := by
  simp [advance, List.foldl_append]

end Position

/-- What one step of a scanner yields. -/
inductive Scan where
  | token (t : Token)
  | fault (f : ScanFault)
  | finished
  deriving DecidableEq

/-- A source text with a place in it. -/
structure Scanner where
  /-- The characters not read yet. -/
  rest : List Char
  /-- The place of the first of them. -/
  position : Position
  /-- Whether a fault has been met. -/
  failed : Bool
  /-- Whether the end has been met. -/
  exhausted : Bool
  deriving DecidableEq

namespace Scanner

/-- A scanner at the beginning of a source. -/
def ofText (text : String) : Scanner := ⟨text.toList, Position.start, false, false⟩

/-- Where a fault is placed: at the character that begins no token, and
otherwise after the characters that a token was begun with. -/
def faultPosition (cause : ScanCause) (first after : Position) : Position :=
  match cause with
  | .unexpected _ => first
  | _ => after

/-- Takes one step. -/
def scan (s : Scanner) : Scan × Scanner :=
  let first := s.position.advance (s.rest.takeWhile Head.isSkipped)
  match s.rest.dropWhile Head.isSkipped with
  | [] => (.finished, ⟨[], first, s.failed, true⟩)
  | c :: tail =>
    let head := Head.read c tail
    let after := first.advance head.span
    match head.content with
    | .token kind form lexeme =>
      (.token ⟨kind, String.ofList lexeme, form, first, head.span.length⟩,
        ⟨head.rest, after, s.failed, s.exhausted⟩)
    | .fault cause =>
      (.fault ⟨cause, faultPosition cause first after⟩, ⟨head.rest, after, true, s.exhausted⟩)

/-- A step that does not finish the source takes a character from it. -/
theorem length_scan_lt (s : Scanner) (h : s.scan.1 ≠ .finished) :
    s.scan.2.rest.length < s.rest.length := by
  have hle := (List.dropWhile_suffix Head.isSkipped (l := s.rest)).length_le
  revert h
  unfold scan
  dsimp only
  cases htext : s.rest.dropWhile Head.isSkipped with
  | nil => simp
  | cons c tail =>
    intro _
    rw [htext] at hle
    have hlt := Head.length_rest_lt c tail
    dsimp only
    split <;> exact Nat.lt_of_lt_of_le hlt hle

/-- What scanning to the end yields, tokens and faults in the order of the
text. -/
def pieces (s : Scanner) : List (Except ScanFault Token) :=
  match _step : s.scan with
  | (.token t, next) => .ok t :: pieces next
  | (.fault f, next) => .error f :: pieces next
  | (.finished, _) => []
termination_by s.rest.length
decreasing_by
  all_goals
    have hlt := length_scan_lt s (by rw [_step]; simp)
    rw [_step] at hlt
    exact hlt

/-- The tokens up to the first step that yields none, the fault if it was one,
and the scanner after that step. -/
def iterate (s : Scanner) : List Token × Option ScanFault × Scanner :=
  match _step : s.scan with
  | (.token t, next) =>
    let later := iterate next
    (t :: later.1, later.2)
  | (.fault f, next) => ([], some f, next)
  | (.finished, next) => ([], none, next)
termination_by s.rest.length
decreasing_by
  have hlt := length_scan_lt s (by rw [_step]; simp)
  rw [_step] at hlt
  exact hlt

end Scanner

/-- The tokens of a source, faults passed over. -/
def tokenize (text : String) : List Token :=
  (Scanner.ofText text).pieces.filterMap fun
    | .ok t => some t
    | .error _ => none

/-- The faults of a source. -/
def scanFaults (text : String) : List ScanFault :=
  (Scanner.ofText text).pieces.filterMap fun
    | .ok _ => none
    | .error f => some f

end LineCalculator
