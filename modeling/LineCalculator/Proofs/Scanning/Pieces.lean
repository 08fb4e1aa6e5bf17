import LineCalculator.Token.Scanner

/-!
# What a scanner yields

The equations of a scanner, with no regard to what a step reads.  A step is told by the
head of the text behind the blanks (`Scanner.scan_of_token` and its siblings), and going
through a text is told by the first step and by going on behind it
(`Scanner.pieces_of_token`, `Scanner.iterate_of_token` and their siblings).

Going through a text yields tokens and faults in one list.  `tokensOf` and `faultsOf` take
it apart again.  Up to the first fault there is nothing to take apart: going through to the
end yields what going on until a step yields no token does, and then the rest
(`Scanner.pieces_eq`).
-/

namespace LineCalculator

/-! ## Tokens and faults -/

/-- The tokens among some tokens and faults. -/
def tokensOf (pieces : List (Except ScanFault Token)) : List Token :=
  pieces.filterMap fun
    | .ok t => some t
    | .error _ => none

/-- The faults among some tokens and faults. -/
def faultsOf (pieces : List (Except ScanFault Token)) : List ScanFault :=
  pieces.filterMap fun
    | .ok _ => none
    | .error f => some f

section Pieces

variable (pieces later : List (Except ScanFault Token)) (t : Token) (f : ScanFault)

@[simp] theorem tokensOf_nil : tokensOf [] = [] := rfl

@[simp] theorem faultsOf_nil : faultsOf [] = [] := rfl

@[simp] theorem tokensOf_ok : tokensOf (.ok t :: pieces) = t :: tokensOf pieces := rfl

@[simp] theorem tokensOf_error : tokensOf (.error f :: pieces) = tokensOf pieces := rfl

@[simp] theorem faultsOf_ok : faultsOf (.ok t :: pieces) = faultsOf pieces := rfl

@[simp] theorem faultsOf_error : faultsOf (.error f :: pieces) = f :: faultsOf pieces := rfl

@[simp] theorem tokensOf_append : tokensOf (pieces ++ later) = tokensOf pieces ++ tokensOf later :=
  List.filterMap_append

@[simp] theorem faultsOf_append : faultsOf (pieces ++ later) = faultsOf pieces ++ faultsOf later :=
  List.filterMap_append

@[simp] theorem tokensOf_map_ok (ts : List Token) : tokensOf (ts.map .ok) = ts := by
  unfold tokensOf
  rw [List.filterMap_map]
  exact List.filterMap_some

@[simp] theorem faultsOf_map_ok (ts : List Token) : faultsOf (ts.map .ok) = [] := by
  unfold faultsOf
  rw [List.filterMap_map]
  exact List.filterMap_eq_nil_iff.2 fun t _ => rfl

end Pieces

theorem tokenize_eq_tokensOf (text : String) :
    tokenize text = tokensOf (Scanner.ofText text).pieces := rfl

theorem scanFaults_eq_faultsOf (text : String) :
    scanFaults text = faultsOf (Scanner.ofText text).pieces := rfl

namespace Scanner

/-! ## Steps -/

/-- The place of the next token. -/
def first (s : Scanner) : Position := s.position.advance (s.rest.takeWhile Head.isSkipped)

theorem scan_of_nil {s : Scanner} (h : s.rest.dropWhile Head.isSkipped = []) :
    s.scan = (.finished, ⟨[], s.first, s.failed, true⟩) := by
  unfold scan
  rw [h]
  rfl

theorem scan_of_rest_eq_nil {s : Scanner} (h : s.rest = []) :
    s.scan = (.finished, { s with exhausted := true }) := by
  obtain ⟨rest, position, failed, exhausted⟩ := s
  subst h
  rfl

theorem scan_of_token {s : Scanner} {c : Char} {tail lexeme : List Char} {kind : TokenKind}
    {form : NumberForm} (h : s.rest.dropWhile Head.isSkipped = c :: tail)
    (hcontent : (Head.read c tail).content = .token kind form lexeme) :
    s.scan = (.token ⟨kind, String.ofList lexeme, form, s.first, (Head.read c tail).span.length⟩,
      ⟨(Head.read c tail).rest, s.first.advance (Head.read c tail).span, s.failed,
        s.exhausted⟩) := by
  unfold scan
  rw [h]
  simp only [hcontent]
  rfl

theorem scan_of_fault {s : Scanner} {c : Char} {tail : List Char} {cause : ScanCause}
    (h : s.rest.dropWhile Head.isSkipped = c :: tail)
    (hcontent : (Head.read c tail).content = .fault cause) :
    s.scan = (.fault ⟨cause, faultPosition cause s.first (s.first.advance (Head.read c tail).span)⟩,
      ⟨(Head.read c tail).rest, s.first.advance (Head.read c tail).span, true, s.exhausted⟩) := by
  unfold scan
  rw [h]
  simp only [hcontent]
  rfl

/-! ## Going through a text -/

theorem iterate_of_token {s next : Scanner} {t : Token} (h : s.scan = (.token t, next)) :
    s.iterate = (t :: next.iterate.1, next.iterate.2) := by
  rw [iterate]
  split <;> simp_all

theorem iterate_of_fault {s next : Scanner} {f : ScanFault} (h : s.scan = (.fault f, next)) :
    s.iterate = ([], some f, next) := by
  rw [iterate]
  split <;> simp_all

theorem iterate_of_finished {s next : Scanner} (h : s.scan = (.finished, next)) :
    s.iterate = ([], none, next) := by
  rw [iterate]
  split <;> simp_all

theorem pieces_of_token {s next : Scanner} {t : Token} (h : s.scan = (.token t, next)) :
    s.pieces = .ok t :: next.pieces := by
  rw [pieces]
  split <;> simp_all

theorem pieces_of_fault {s next : Scanner} {f : ScanFault} (h : s.scan = (.fault f, next)) :
    s.pieces = .error f :: next.pieces := by
  rw [pieces]
  split <;> simp_all

theorem pieces_of_finished {s next : Scanner} (h : s.scan = (.finished, next)) :
    s.pieces = [] := by
  rw [pieces]
  split <;> simp_all

/-- Going through a text yields first the tokens up to the first fault, if there is one, and
then that fault. -/
theorem pieces_eq (s : Scanner) : ∃ later, s.pieces =
    s.iterate.1.map .ok ++ s.iterate.2.1.elim [] fun f => .error f :: later := by
  induction s using iterate.induct with
  | case1 s t next hscan ih =>
    obtain ⟨later, hlater⟩ := ih
    rw [iterate_of_token hscan, pieces_of_token hscan, hlater]
    exact ⟨later, rfl⟩
  | case2 s f next hscan =>
    rw [iterate_of_fault hscan, pieces_of_fault hscan]
    exact ⟨next.pieces, rfl⟩
  | case3 s next hscan =>
    rw [iterate_of_finished hscan, pieces_of_finished hscan]
    exact ⟨[], rfl⟩

end Scanner

/-- A text without a fault has the tokens up to its first fault. -/
theorem tokenize_of_iterate {text : String} (h : (Scanner.ofText text).iterate.2.1 = none) :
    scanFaults text = [] ∧ tokenize text = (Scanner.ofText text).iterate.1 := by
  obtain ⟨later, hlater⟩ := (Scanner.ofText text).pieces_eq
  rw [scanFaults_eq_faultsOf, tokenize_eq_tokensOf, hlater, h]
  simp

/-- The fault that ends the tokens of a text is its first. -/
theorem head?_scanFaults (text : String) :
    (scanFaults text).head? = (Scanner.ofText text).iterate.2.1 := by
  obtain ⟨later, hlater⟩ := (Scanner.ofText text).pieces_eq
  rw [scanFaults_eq_faultsOf, hlater, faultsOf_append, faultsOf_map_ok, List.nil_append]
  cases (Scanner.ofText text).iterate.2.1 with
  | none => rfl
  | some f => rfl

theorem scanFaults_ne_nil {text : String} (h : (Scanner.ofText text).iterate.2.1 ≠ none) :
    scanFaults text ≠ [] := by
  intro hnil
  rw [← head?_scanFaults, hnil] at h
  exact h rfl

end LineCalculator
