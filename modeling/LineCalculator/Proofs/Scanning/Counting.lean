import LineCalculator.Proofs.Scanning.Counter
import LineCalculator.Proofs.Scanning.Separators
import LineCalculator.Proofs.Scanning.Steps

/-!
# Counting keeps the place

A scanner that looks at one character at a time and counts its columns takes the same steps
as one that reads a head in one go: it yields the same tokens and faults, and its place is
the place behind the characters read (`Counter.steps_scanner`).

What a counter takes of a name, an operator or the digits of a number is what the head of
the text covers (`Counter.splitWhile_takeName` and its siblings).  And a newline is never
taken among other characters, so that a column for each of them is the right place
(`Counter.Drawn.advance_eq`).
-/

namespace LineCalculator

namespace Counter

/-! ## What is taken -/

section SplitWhile

variable {α : Type} {accept : α → Char → Option α} {taken longer : α} {c : Char}

theorem splitWhile_of_some (h : accept taken c = some longer) (rest : List Char) :
    splitWhile accept taken (c :: rest) = splitWhile accept longer rest := by
  rw [splitWhile, h]

theorem splitWhile_of_none (h : accept taken c = none) (rest : List Char) :
    splitWhile accept taken (c :: rest) = (taken, c :: rest) := by
  rw [splitWhile, h]

end SplitWhile

theorem splitWhile_takeName (name text : List Char) :
    splitWhile takeName name text =
      (name ++ text.takeWhile Head.continuesName, text.dropWhile Head.continuesName) := by
  induction text generalizing name with
  | nil => simp [splitWhile]
  | cons c text ih =>
    by_cases hc : Head.continuesName c = true
    · rw [splitWhile_of_some (if_pos hc), ih]
      simp [hc]
    · rw [splitWhile_of_none (if_neg hc)]
      simp [hc]

theorem splitWhile_takeOperator (symbol text : List Char) :
    splitWhile takeOperator symbol text = Head.splitOperator symbol text := by
  induction text generalizing symbol with
  | nil => rfl
  | cons c text ih =>
    unfold Head.splitOperator
    by_cases hc : Head.beginsOperator (symbol ++ [c]) = true
    · rw [splitWhile_of_some (if_pos hc), ih, if_pos hc]
    · rw [splitWhile_of_none (if_neg hc), if_neg hc]

theorem splitWhile_takeDigit (form : NumberForm) (pointAllowed : Bool) (digits text : List Char) :
    (splitWhile (takeDigit form) (pointAllowed, digits) text).1.2 =
        digits ++ (Head.splitDigits form pointAllowed text).1.filter (· != '_') ∧
      (splitWhile (takeDigit form) (pointAllowed, digits) text).2 =
        (Head.splitDigits form pointAllowed text).2 := by
  induction text generalizing pointAllowed digits with
  | nil => simp [splitWhile, Head.splitDigits]
  | cons c text ih =>
    unfold Head.splitDigits
    by_cases hunderscore : c = '_'
    · have htake : takeDigit form (pointAllowed, digits) c = some (pointAllowed, digits) :=
        if_pos hunderscore
      rw [splitWhile_of_some htake]
      simp [hunderscore, ih]
    · by_cases hdigit : Head.isDigitOf form c = true
      · have htake : takeDigit form (pointAllowed, digits) c =
            some (pointAllowed, digits ++ [c]) := by
          simp [takeDigit, hunderscore, hdigit]
        rw [splitWhile_of_some htake]
        simp [hunderscore, hdigit, ih]
      · by_cases hpoint : (pointAllowed && c == '.') = true
        · have htake : takeDigit form (pointAllowed, digits) c = some (false, digits ++ [c]) := by
            simp [takeDigit, hunderscore, hdigit, hpoint]
          rw [splitWhile_of_some htake]
          simp [hunderscore, hdigit, hpoint, ih]
        · have htake : takeDigit form (pointAllowed, digits) c = none := by
            simp [takeDigit, hunderscore, hdigit, hpoint]
          rw [splitWhile_of_none htake]
          simp [hunderscore, hdigit, hpoint]

/-! ## Every step is the same -/

/-- The scanner that stands where a counter has counted to. -/
def scanner (s : Counter) : Scanner := ⟨s.text, ⟨s.line, s.column⟩, s.failed, s.exhausted⟩

/-- Without a newline only columns are counted. -/
theorem advance_of_newline_notMem {text : List Char} (h : '\n' ∉ text) (line column : Nat) :
    Position.advance ⟨line, column⟩ text = ⟨line, column + text.length⟩ := by
  induction text generalizing column with
  | nil => rfl
  | cons c text ih =>
    obtain ⟨hc, htext⟩ := not_or.1 (fun hmem => h (List.mem_cons.2 hmem))
    have hnext : Position.next ⟨line, column⟩ c = ⟨line, column + 1⟩ := if_neg (Ne.symm hc)
    rw [Position.advance_cons, hnext, ih htext, List.length_cons, Nat.add_right_comm, Nat.add_assoc]

theorem Drawn.advance_eq {s next : Counter} {read : List Char} (h : s.Drawn read next)
    (hclear : '\n' ∉ read) :
    Position.advance ⟨s.line, s.column⟩ read = ⟨next.line, next.column⟩ := by
  rw [advance_of_newline_notMem hclear, h.line, h.column]

/-- A step may as well begin behind some blanks. -/
theorem scan_scanner_of_blanks {s first : Counter} {blanks : List Char} (h : s.Drawn blanks first)
    (hblanks : ∀ c ∈ blanks, Head.isSkipped c = true) : s.scanner.scan = first.scanner.scan := by
  have hclear : '\n' ∉ blanks := fun hmem => by simpa [Head.isSkipped_newline] using hblanks _ hmem
  unfold Scanner.scan scanner
  simp only [h.text, List.takeWhile_append_of_pos hblanks, List.dropWhile_append_of_pos hblanks,
    Position.advance_append, h.advance_eq hclear, h.failed, h.exhausted]

theorem scan_scanner_of_nil {s : Counter} (h : s.text = []) :
    s.scanner.scan = (.finished, { s with exhausted := true }.scanner) := by
  have hrest : s.scanner.rest = [] := h
  rw [Scanner.scan_of_rest_eq_nil hrest]
  rfl

section Behind

variable {first last : Counter} {c : Char} {tail span : List Char} {kind : TokenKind}
  {form : NumberForm} {lexeme : List Char} {cause : ScanCause} {column : Nat}

theorem scanner_first (hc : Head.isSkipped c = false) (htext : first.text = c :: tail) :
    first.scanner.rest.dropWhile Head.isSkipped = c :: tail ∧
      first.scanner.first = ⟨first.line, first.column⟩ := by
  unfold scanner Scanner.first
  dsimp only
  rw [htext, List.dropWhile_cons_of_neg (by simp [hc]), List.takeWhile_cons_of_neg (by simp [hc])]
  exact ⟨rfl, rfl⟩

/-- A token is read that has been drawn. -/
theorem scan_scanner_of_token (hc : Head.isSkipped c = false) (htext : first.text = c :: tail)
    (hread : Head.read c tail = ⟨.token kind form lexeme, span, last.text⟩)
    (hdrawn : first.Drawn span last) (hclear : '\n' ∉ span) :
    first.scanner.scan = (.token (last.token kind form lexeme first.column), last.scanner) := by
  obtain ⟨hdrop, hfirst⟩ := scanner_first hc htext
  have hlength : last.column - first.column = span.length := by
    rw [hdrawn.column, Nat.add_sub_cancel_left]
  rw [Scanner.scan_of_token hdrop (congrArg Head.content hread), hread, hfirst]
  simp only [hdrawn.advance_eq hclear, token, scanner, hdrawn.line, hdrawn.failed,
    hdrawn.exhausted, hlength]

/-- What has been drawn is given up. -/
theorem scan_scanner_of_fault (hc : Head.isSkipped c = false) (htext : first.text = c :: tail)
    (hread : Head.read c tail = ⟨.fault cause, span, last.text⟩)
    (hdrawn : first.Drawn span last) (hclear : '\n' ∉ span)
    (hcolumn : Scanner.faultPosition cause ⟨first.line, first.column⟩ ⟨last.line, last.column⟩ =
      ⟨last.line, column⟩) :
    first.scanner.scan = ((last.fail cause column).1, (last.fail cause column).2.scanner) := by
  obtain ⟨hdrop, hfirst⟩ := scanner_first hc htext
  rw [Scanner.scan_of_fault hdrop (congrArg Head.content hread), hread, hfirst]
  simp only [hdrawn.advance_eq hclear, hcolumn, fail, scanner, ← hdrawn.exhausted]
  rfl

/-- A newline begins the next line. -/
theorem scan_scanner_of_newline (hdrawn : first.Drawn ['\n'] last) :
    first.scanner.scan = (.token (last.token .newline .bare ['\n'] first.column),
      { last with line := last.line + 1, column := 1 }.scanner) := by
  obtain ⟨hdrop, hfirst⟩ := scanner_first Head.isSkipped_newline hdrawn.text
  have hlength : last.column - first.column = 1 := by
    rw [hdrawn.column, Nat.add_sub_cancel_left]
    rfl
  rw [Scanner.scan_of_token hdrop rfl, hfirst]
  unfold token
  rw [hlength, hdrawn.line]
  simp only [scanner, Head.read, hdrawn.failed, hdrawn.exhausted]
  rfl

theorem scan_scanner_of_number (hc : Head.isSkipped c = false) (htext : first.text = c :: tail)
    (hread : Head.read c tail = Head.number (c :: tail)) :
    first.scanner.scan = ((first.scanNumber first.column).1,
      (first.scanNumber first.column).2.scanner) := by
  obtain ⟨hmarked, hmark⟩ := first.drawn_drawMark
  unfold scanNumber
  generalize first.drawMark = marked at hmarked hmark ⊢
  obtain ⟨form, marked⟩ := marked
  have hnewline : ∀ digits, takeDigit form digits '\n' = none := fun digits => by
    simp [takeDigit, Head.separates_newline.digit form]
  obtain ⟨read, hdrawn, hclear, -, hsplit⟩ := drawn_drawWhile hnewline (form.hasPoint, []) marked
  dsimp only at hmarked hmark ⊢
  generalize marked.drawWhile (takeDigit form) (form.hasPoint, []) = run at hdrawn hsplit ⊢
  obtain ⟨⟨pointAllowed, digits⟩, drawn, last⟩ := run
  dsimp only at hdrawn hsplit ⊢
  obtain ⟨hdigits, hrest⟩ := splitWhile_takeDigit form form.hasPoint [] marked.text
  rw [hsplit] at hdigits hrest
  dsimp only at hdigits hrest
  -- what is drawn is what the head covers, since the same text is left
  have hspan : (Head.splitDigits form form.hasPoint marked.text).1 = read := by
    have happ : (Head.splitDigits form form.hasPoint marked.text).1 ++ last.text =
        read ++ last.text := by
      rw [← hdrawn.text, hrest]
      exact Head.splitDigits_append form form.hasPoint marked.text
    exact List.append_cancel_right happ
  have hmarkClear : '\n' ∉ form.mark := by cases form <;> decide
  refine scan_scanner_of_token hc htext ?_ (hmarked.trans hdrawn) (by simp [hmarkClear, hclear])
  rw [hread, ← htext]
  unfold Head.number
  rw [hmark]
  dsimp only
  rw [hspan, hdigits, hspan, hrest, List.nil_append]

theorem scan_scanner_of_name (hc : Head.isSkipped c = false) (htext : first.text = c :: tail)
    (hread : Head.read c tail = Head.name (c :: tail)) :
    first.scanner.scan = ((first.scanName first.column).1,
      (first.scanName first.column).2.scanner) := by
  have hnewline : ∀ name, takeName name '\n' = none := fun name => by
    simp [takeName, Head.separates_newline.name]
  obtain ⟨read, hdrawn, hclear, -, hsplit⟩ := drawn_drawWhile hnewline [] first
  unfold scanName
  generalize first.drawWhile takeName [] = run at hdrawn hsplit ⊢
  obtain ⟨name, drawn, last⟩ := run
  dsimp only at hdrawn hsplit ⊢
  rw [splitWhile_takeName, List.nil_append] at hsplit
  obtain ⟨hname, hrest⟩ := Prod.mk.inj hsplit
  have hspan : name = read := by
    have happ := List.takeWhile_append_dropWhile (p := Head.continuesName) (l := first.text)
    rw [hname, hrest, hdrawn.text] at happ
    exact List.append_cancel_right happ
  refine scan_scanner_of_token hc htext ?_ hdrawn hclear
  rw [hread, ← htext]
  unfold Head.name
  dsimp only
  rw [hname, hrest, hspan]

/-- Of an operator the first character has been drawn. -/
theorem scan_scanner_of_operator {next : Counter} (hc : Head.isSkipped c = false)
    (htext : first.text = c :: tail) (hnext : first.Drawn [c] next) (hne : c ≠ '\n')
    (hread : Head.read c tail = Head.operator c tail) :
    first.scanner.scan = ((next.scanOperator c first.column).1,
      (next.scanOperator c first.column).2.scanner) := by
  have hnewline : ∀ symbol, takeOperator symbol '\n' = none := fun symbol => by
    simp [takeOperator, Head.beginsOperator_append Head.separates_newline symbol]
  obtain ⟨read, hdrawn, hclear, hlast, hsplit⟩ := drawn_drawWhile hnewline [c] next
  unfold scanOperator
  generalize next.drawWhile takeOperator [c] = run at hdrawn hlast hsplit ⊢
  obtain ⟨symbol, drawn, last⟩ := run
  dsimp only at hdrawn hlast hsplit ⊢
  have hnextText : next.text = tail := by
    have happ := hnext.text
    rw [htext] at happ
    exact (List.cons.inj happ).2.symm
  rw [splitWhile_takeOperator, hnextText] at hsplit
  have hspan : symbol = [c] ++ read := by
    have happ := Head.splitOperator_append [c] tail
    rw [hsplit, ← hnextText, hdrawn.text, ← List.append_assoc] at happ
    exact List.append_cancel_right happ
  have hall := hnext.trans hdrawn
  have hclear' : '\n' ∉ [c] ++ read := by simp [hne.symm, hclear]
  rw [← hspan] at hall hclear'
  unfold Head.operator at hread
  rw [hsplit] at hread
  dsimp only at hread
  cases hlookup : TokenKind.operators.lookup symbol with
  | some kind =>
    rw [hlookup] at hread
    exact scan_scanner_of_token hc htext hread hall hclear'
  | none =>
    rw [hlookup] at hread
    rw [hlast]
    cases hleft : last.text with
    | nil =>
      rw [hleft] at hread
      exact scan_scanner_of_fault hc htext (hread.trans (by rw [hleft])) hall hclear' rfl
    | cons found rest =>
      rw [hleft] at hread
      cases hexpected : Head.expectedAfter symbol with
      | none =>
        rw [hexpected] at hread
        exact scan_scanner_of_fault hc htext (hread.trans (by rw [hleft])) hall hclear' rfl
      | some expected =>
        rw [hexpected] at hread
        exact scan_scanner_of_fault hc htext (hread.trans (by rw [hleft])) hall hclear' rfl

end Behind

/-- **A counter takes the same step as the scanner that stands where it has counted to.** -/
theorem scan_scanner (s : Counter) : s.scanner.scan = (s.scan.1, s.scan.2.scanner) := by
  obtain ⟨blanks, hblanks, hend⟩ := s.drawn_skipBlanks
  unfold scan
  generalize s.skipBlanks = result at hend ⊢
  obtain ⟨drawn, next⟩ := result
  dsimp only at hend ⊢
  rcases hend with ⟨rfl, hdrawn, hnil⟩ | ⟨c, rfl, hdrawn, hc⟩
  · rw [scan_scanner_of_blanks hdrawn hblanks]
    exact scan_scanner_of_nil hnil
  · -- the step begins behind the blanks, where handing back would lead
    rw [scan_scanner_of_blanks hdrawn.handBack hblanks]
    have htext : (next.handBack c).text = c :: next.text := rfl
    have hone : (next.handBack c).Drawn [c] next := hdrawn.again
    dsimp only
    split
    case isTrue hnewline =>
      subst hnewline
      exact scan_scanner_of_newline hone
    case isFalse hnewline =>
      have hclear : '\n' ∉ [c] := by simpa using Ne.symm hnewline
      split
      case h_1 kind hlookup =>
        refine scan_scanner_of_token hc htext ?_ hone hclear
        unfold Head.read
        rw [if_neg hnewline, hlookup]
      case h_2 hlookup =>
        have hread : Head.read c next.text =
            if Head.startsNumber c then Head.number (c :: next.text)
            else if Head.startsName c then Head.name (c :: next.text)
            else if Head.beginsOperator [c] then Head.operator c next.text
            else ⟨.fault (.unexpected c), [c], next.text⟩ := by
          unfold Head.read
          rw [if_neg hnewline, hlookup]
        split
        case isTrue hnumber => exact scan_scanner_of_number hc htext (by rw [hread, if_pos hnumber])
        case isFalse hnumber =>
          rw [if_neg hnumber] at hread
          split
          case isTrue hname => exact scan_scanner_of_name hc htext (by rw [hread, if_pos hname])
          case isFalse hname =>
            rw [if_neg hname] at hread
            split
            case isTrue hop =>
              exact scan_scanner_of_operator hc htext hone hnewline (by rw [hread, if_pos hop])
            case isFalse hop =>
              rw [if_neg hop] at hread
              exact scan_scanner_of_fault hc htext hread hone hclear rfl

/-! ## Any number of steps -/

/-- **A counter takes the same steps as a scanner, however many.** -/
theorem steps_scanner (s : Counter) (n : Nat) :
    s.scanner.steps n = ((s.steps n).1, (s.steps n).2.scanner) := by
  induction n generalizing s with
  | zero => rfl
  | succ n ih =>
    have hstep := s.scan_scanner
    unfold steps
    rw [Scanner.steps_succ]
    rcases hscan : s.scan with ⟨t | f | _, next⟩
    · rw [hscan] at hstep
      rw [Scanner.respond_of_token hstep, ih]
      rfl
    · rw [hscan] at hstep
      rw [Scanner.respond_of_fault hstep, ih]
      rfl
    · rw [hscan] at hstep
      rw [Scanner.respond_of_finished hstep, ih]
      rfl

end Counter

end LineCalculator
