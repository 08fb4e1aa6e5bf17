import LineCalculator.Proofs.Scanning.Separators
import LineCalculator.Proofs.Scanning.Tiling

/-!
# Lines are scanned apart

A scanner goes over a newline as over any other token, and takes nothing along but the
place.  So a text with a newline behind it and more text behind that is scanned as the two
texts are: first what the first text yields, then the newline, then what the second text
yields, as many lines further down (`lines_scanned_apart`).

One report is different.  An angle bracket at the end of the first text has nothing behind
it there and a newline here, so what was an unexpected end is now a newline found in place
of the second bracket (`ScanFault.beforeNewline`).

## The two halves

`Scanner.before s more` is the scanner `s` with a newline and the text `more` behind its
text.  It takes the steps that `s` takes as long as these find something
(`scan_before_of_token`, `scan_before_of_fault`), then reads the newline
(`scan_before_of_finished`), and from there on it is a scanner of `more` but for the lines
above (`Scanner.IsBelow`).
-/

namespace LineCalculator

/-! ## Further down -/

/-- The place some lines further down. -/
def Position.down (n : Nat) (p : Position) : Position := ⟨p.line + n, p.column⟩

/-- A token some lines further down. -/
def Token.down (n : Nat) (t : Token) : Token := { t with position := t.position.down n }

/-- A fault some lines further down. -/
def ScanFault.down (n : Nat) (f : ScanFault) : ScanFault :=
  { f with position := f.position.down n }

/-- What a step yields, some lines further down. -/
def Scan.down (n : Nat) : Scan → Scan
  | .token t => .token (t.down n)
  | .fault f => .fault (f.down n)
  | .finished => .finished

theorem Position.next_newline (p : Position) : p.next '\n' = ⟨p.line + 1, 1⟩ := rfl

theorem Position.advance_down (n : Nat) (p : Position) (text : List Char) :
    (p.down n).advance text = (p.advance text).down n := by
  induction text generalizing p with
  | nil => rfl
  | cons c text ih =>
    have hnext : (p.down n).next c = (p.next c).down n := by
      unfold next down
      split
      · simp only [Nat.add_right_comm]
      · rfl
    rw [advance_cons, advance_cons, hnext, ih]

namespace Scanner

/-- A scanner has the same text before it as another one, some lines further down. -/
def IsBelow (n : Nat) (s' s : Scanner) : Prop :=
  s'.rest = s.rest ∧ s'.position = s.position.down n

theorem IsBelow.scan {n : Nat} {s' s : Scanner} (h : s'.IsBelow n s) :
    s'.scan.1 = s.scan.1.down n ∧ s'.scan.2.IsBelow n s.scan.2 := by
  obtain ⟨hrest, hposition⟩ := h
  unfold Scanner.scan
  simp only [hrest, hposition, Position.advance_down]
  split
  · exact ⟨rfl, rfl, rfl⟩
  · split
    · exact ⟨rfl, rfl, rfl⟩
    · rename_i cause _
      refine ⟨?_, rfl, rfl⟩
      cases cause <;> rfl

/-- What is yielded further down is what is yielded, further down. -/
theorem IsBelow.pieces {n : Nat} {s' s : Scanner} (h : s'.IsBelow n s) :
    tokensOf s'.pieces = (tokensOf s.pieces).map (Token.down n) ∧
      faultsOf s'.pieces = (faultsOf s.pieces).map (ScanFault.down n) := by
  induction s using Scanner.pieces.induct generalizing s' with
  | case1 s t next hscan ih =>
    obtain ⟨hresult, hbelow⟩ := h.scan
    rw [hscan] at hresult hbelow
    obtain ⟨htokens, hfaults⟩ := ih hbelow
    rw [pieces_of_token hscan, pieces_of_token (Prod.ext hresult rfl)]
    simp [htokens, hfaults]
  | case2 s f next hscan ih =>
    obtain ⟨hresult, hbelow⟩ := h.scan
    rw [hscan] at hresult hbelow
    obtain ⟨htokens, hfaults⟩ := ih hbelow
    rw [pieces_of_fault hscan, pieces_of_fault (Prod.ext hresult rfl)]
    simp [htokens, hfaults]
  | case3 s next hscan =>
    obtain ⟨hresult, -⟩ := h.scan
    rw [hscan] at hresult
    rw [pieces_of_finished hscan, pieces_of_finished (Prod.ext hresult rfl)]
    simp

end Scanner

/-! ## Before a newline -/

/-- A fault of a text when a newline follows the text. -/
def ScanFault.beforeNewline (text : List Char) (f : ScanFault) : ScanFault :=
  match f.cause, text.getLast? with
  | .endOfInput, some bracket => ⟨.mismatch bracket '\n', f.position⟩
  | _, _ => f

namespace Head

/-- What is given up as no token is given up before a newline too, and only of an angle
bracket at the end is something else said. -/
theorem read_append_newline_of_fault {c : Char} {tail : List Char} {cause : ScanCause}
    (h : (read c tail).content = .fault cause) (more : List Char) :
    ∃ cause', read c tail = ⟨.fault cause, [c], tail⟩ ∧
      read c (tail ++ '\n' :: more) = ⟨.fault cause', [c], tail ++ '\n' :: more⟩ ∧
      (cause = .unexpected c ∧ cause' = .unexpected c ∨
        (c = '<' ∨ c = '>') ∧ cause = .afterLone c tail ∧
          cause' = .afterLone c (tail ++ '\n' :: more)) := by
  have hc : c ≠ '\n' := by
    rintro rfl
    cases h
  have hlonger : ∃ cause', (read c (tail ++ '\n' :: more)).content = .fault cause' := by
    rcases read_append separates_newline hc tail more with ⟨kind, form, lexeme, htoken, -⟩ |
      ⟨-, cause', -, hcause'⟩
    · rw [h] at htoken
      cases htoken
    · exact ⟨cause', hcause'⟩
  obtain ⟨cause', hcause'⟩ := hlonger
  have hbracket : ∀ c : Char, c = '<' ∨ c = '>' → beginsOperator [c] = true := by
    rintro c (rfl | rfl) <;> decide
  have hshort := reads_read c tail
  have hlong := reads_read c (tail ++ '\n' :: more)
  generalize read c tail = head at h hshort
  generalize read c (tail ++ '\n' :: more) = longer at hcause' hlong
  cases hshort with
  | token => cases h
  | unexpected hbegins =>
    cases h
    cases hlong with
    | token => cases hcause'
    | unexpected => exact ⟨_, rfl, rfl, Or.inl ⟨rfl, rfl⟩⟩
    | lone hlone => simp [hbracket c hlone] at hbegins
  | lone hlone =>
    cases h
    cases hlong with
    | token => cases hcause'
    | unexpected hbegins => simp [hbracket c hlone] at hbegins
    | lone => exact ⟨_, rfl, rfl, Or.inr ⟨hlone, rfl, rfl⟩⟩

end Head

namespace ScanFault

theorem beforeNewline_afterLone {text rest : List Char} {bracket : Char}
    (h : bracket :: rest <:+ text) (more : List Char) (p : Position) :
    beforeNewline text ⟨.afterLone bracket rest, p⟩ =
      ⟨.afterLone bracket (rest ++ '\n' :: more), p⟩ := by
  obtain ⟨before, rfl⟩ := h
  cases rest with
  | nil => simp [beforeNewline, ScanCause.afterLone]
  | cons found rest => rfl

end ScanFault

namespace Scanner

/-- The scanner with a newline and more text behind its text. -/
def before (s : Scanner) (more : List Char) : Scanner :=
  { s with rest := s.rest ++ '\n' :: more }

theorem ofText_append_newline (first later : String) :
    ofText (first ++ "\n" ++ later) = (ofText first).before later.toList := by
  unfold ofText before
  simp

theorem first_before (s : Scanner) (more : List Char) : (s.before more).first = s.first := by
  unfold first before
  rw [takeWhile_append_cons Head.isSkipped_newline]

theorem dropWhile_before (s : Scanner) (more : List Char) :
    (s.before more).rest.dropWhile Head.isSkipped =
      s.rest.dropWhile Head.isSkipped ++ '\n' :: more :=
  dropWhile_append_cons Head.isSkipped_newline s.rest more

section Before

variable {s next : Scanner} (more : List Char)

/-- A token is read before a newline as it is read at the end. -/
theorem scan_before_of_token {t : Token} (h : s.scan = (.token t, next)) :
    (s.before more).scan = (.token t, next.before more) := by
  cases hdrop : s.rest.dropWhile Head.isSkipped with
  | nil =>
    rw [scan_of_nil hdrop] at h
    cases h
  | cons c tail =>
    have hlong := s.dropWhile_before more
    rw [hdrop, List.cons_append] at hlong
    cases hcontent : (Head.read c tail).content with
    | fault cause =>
      rw [scan_of_fault hdrop hcontent] at h
      cases h
    | token kind form lexeme =>
      have hread : Head.read c (tail ++ '\n' :: more) = (Head.read c tail).before '\n' more := by
        by_cases hc : c = '\n'
        · subst hc
          rfl
        · rcases Head.read_append Head.separates_newline hc tail more with ⟨_, _, _, _, _, hread⟩ |
            ⟨cause, _, hcause, _⟩
          · exact hread
          · rw [hcontent] at hcause
            cases hcause
      rw [scan_of_token hdrop hcontent] at h
      cases h
      rw [scan_of_token hlong (by rw [hread]; exact hcontent), hread,
        first_before]
      rfl

/-- A fault before a newline is what it is at the end, but for an angle bracket that is the
last character. -/
theorem scan_before_of_fault {f : ScanFault} (h : s.scan = (.fault f, next)) {text : List Char}
    (htext : s.rest <:+ text) :
    (s.before more).scan = (.fault (f.beforeNewline text), next.before more) := by
  cases hdrop : s.rest.dropWhile Head.isSkipped with
  | nil =>
    rw [scan_of_nil hdrop] at h
    cases h
  | cons c tail =>
    have hlong := s.dropWhile_before more
    have hsuffix : c :: tail <:+ text :=
      hdrop ▸ (List.dropWhile_suffix Head.isSkipped (l := s.rest)).trans htext
    rw [hdrop, List.cons_append] at hlong
    cases hcontent : (Head.read c tail).content with
    | token kind form lexeme =>
      rw [scan_of_token hdrop hcontent] at h
      cases h
    | fault cause =>
      obtain ⟨cause', hread, hread', hcause⟩ := Head.read_append_newline_of_fault hcontent more
      have hfault := scan_of_fault hdrop hcontent
      have hfault' := scan_of_fault hlong
        (congrArg Head.content hread')
      rw [hread, h] at hfault
      rw [hread', first_before] at hfault'
      cases hfault
      rw [hfault']
      rcases hcause with ⟨rfl, rfl⟩ | ⟨-, rfl, rfl⟩
      · rfl
      · rw [faultPosition_afterLone, faultPosition_afterLone,
          ScanFault.beforeNewline_afterLone hsuffix more]
        rfl

/-- Where a scanner finds the end it finds a newline that is before more text. -/
theorem scan_before_of_finished (h : s.scan = (.finished, next)) :
    (s.before more).scan = (.token ⟨.newline, "\n", .bare, next.position, 1⟩,
      ⟨more, next.position.next '\n', s.failed, s.exhausted⟩) := by
  cases hdrop : s.rest.dropWhile Head.isSkipped with
  | nil =>
    have hlong := s.dropWhile_before more
    rw [hdrop, List.nil_append] at hlong
    rw [scan_of_nil hdrop] at h
    cases h
    rw [scan_of_token hlong rfl, first_before]
    rfl
  | cons c tail =>
    cases hcontent : (Head.read c tail).content with
    | token kind form lexeme =>
      rw [scan_of_token hdrop hcontent] at h
      cases h
    | fault cause =>
      rw [scan_of_fault hdrop hcontent] at h
      cases h

end Before

/-- What a scanner yields with a newline and more text behind its text: what it yields
without them, the newline, and what is yielded from the line behind the newline on. -/
theorem pieces_before {s : Scanner} {text : List Char} (htext : s.rest <:+ text)
    (more : List Char) :
    ∃ next : Scanner, next.rest = more ∧ next.position = s.ending.next '\n' ∧
      (s.before more).pieces = s.pieces.map (Except.mapError (ScanFault.beforeNewline text)) ++
        .ok ⟨.newline, "\n", .bare, s.ending, 1⟩ :: next.pieces := by
  induction s using pieces.induct with
  | case1 s t next hscan ih =>
    have hstep := Step.of_scan hscan
    obtain ⟨last, hlast, hplace, hpieces⟩ := ih (hstep.suffix.trans htext)
    rw [hstep.ending_eq] at hplace hpieces
    refine ⟨last, hlast, hplace, ?_⟩
    rw [pieces_of_token (scan_before_of_token more hscan), pieces_of_token hscan, hpieces]
    rfl
  | case2 s f next hscan ih =>
    have hstep := Step.of_scan hscan
    obtain ⟨last, hlast, hplace, hpieces⟩ := ih (hstep.suffix.trans htext)
    rw [hstep.ending_eq] at hplace hpieces
    refine ⟨last, hlast, hplace, ?_⟩
    rw [pieces_of_fault (scan_before_of_fault more hscan htext), pieces_of_fault hscan, hpieces]
    rfl
  | case3 s next hscan =>
    have hposition : next.position = s.ending := by
      cases Step.of_scan hscan with
      | finished => rfl
    have hbefore := scan_before_of_finished more hscan
    rw [hposition] at hbefore
    refine ⟨⟨more, s.ending.next '\n', s.failed, s.exhausted⟩, rfl, rfl, ?_⟩
    rw [pieces_of_token hbefore, pieces_of_finished hscan]
    rfl

/-- Only an angle bracket that is the last character is met by the end of the text. -/
theorem getLast?_of_endOfInput {s : Scanner} {text : List Char} (htext : s.rest <:+ text) :
    ∀ f ∈ faultsOf s.pieces, f.cause = .endOfInput →
      text.getLast? = some '<' ∨ text.getLast? = some '>' := by
  induction s using pieces.induct with
  | case1 s t next hscan ih =>
    rw [pieces_of_token hscan, faultsOf_ok]
    exact ih ((Step.of_scan hscan).suffix.trans htext)
  | case2 s f next hscan ih =>
    rw [pieces_of_fault hscan, faultsOf_error]
    intro f' hf' hcause
    have hstep := Step.of_scan hscan
    rcases List.mem_cons.1 hf' with rfl | hlater
    · cases hstep with
      | unexpected => cases hcause
      | @lone blanks rest c hrest blank bracket =>
        have hnil : rest = [] := by
          cases rest with
          | nil => rfl
          | cons found rest => cases hcause
        obtain ⟨before, hbefore⟩ := htext
        have hlast : text.getLast? = some c := by
          rw [← hbefore, hrest, hnil]
          simp
        rw [hlast]
        exact bracket.imp (congrArg some) (congrArg some)
    · exact ih (hstep.suffix.trans htext) f' hlater hcause
  | case3 s next hscan =>
    rw [pieces_of_finished hscan]
    simp

end Scanner

theorem tokensOf_map_mapError (g : ScanFault → ScanFault)
    (pieces : List (Except ScanFault Token)) :
    tokensOf (pieces.map (Except.mapError g)) = tokensOf pieces := by
  induction pieces with
  | nil => rfl
  | cons piece pieces ih => cases piece <;> simp [Except.mapError, ih]

theorem faultsOf_map_mapError (g : ScanFault → ScanFault)
    (pieces : List (Except ScanFault Token)) :
    faultsOf (pieces.map (Except.mapError g)) = (faultsOf pieces).map g := by
  induction pieces with
  | nil => rfl
  | cons piece pieces ih => cases piece <;> simp [Except.mapError, ih]

/-- **Two texts with a newline between them are scanned apart.** -/
theorem lines_scanned_apart (a b : String) :
    tokenize (a ++ "\n" ++ b) = tokenize a ++
      ⟨.newline, "\n", .bare, .behind a.toList, 1⟩ ::
        (tokenize b).map (Token.down (1 + a.toList.count '\n')) ∧
    scanFaults (a ++ "\n" ++ b) = (scanFaults a).map (ScanFault.beforeNewline a.toList) ++
      (scanFaults b).map (ScanFault.down (1 + a.toList.count '\n')) ∧
    ∀ f ∈ scanFaults a, f.cause = .endOfInput →
      a.toList.getLast? = some '<' ∨ a.toList.getLast? = some '>' := by
  have hwhole : (Scanner.ofText a).rest <:+ a.toList := List.suffix_rfl
  have hending : (Scanner.ofText a).ending = .behind a.toList := Position.advance_start a.toList
  obtain ⟨next, hrest, hposition, hpieces⟩ := Scanner.pieces_before hwhole b.toList
  have hbelow : next.IsBelow (1 + a.toList.count '\n') (Scanner.ofText b) := by
    refine ⟨hrest, ?_⟩
    rw [hposition, hending, Position.next_newline]
    simp only [Position.behind, Scanner.ofText, Position.start, Position.down, Nat.add_comm]
  obtain ⟨htokens, hfaults⟩ := hbelow.pieces
  refine ⟨?_, ?_, Scanner.getLast?_of_endOfInput hwhole⟩
  · rw [tokenize_eq_tokensOf, Scanner.ofText_append_newline, hpieces, tokensOf_append,
      tokensOf_map_mapError, tokensOf_ok, htokens, hending]
    rfl
  · rw [scanFaults_eq_faultsOf, Scanner.ofText_append_newline, hpieces, faultsOf_append,
      faultsOf_map_mapError, faultsOf_ok, hfaults]
    rfl

end LineCalculator
