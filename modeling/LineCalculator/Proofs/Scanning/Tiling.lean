import LineCalculator.Proofs.Scanning.Counting

/-!
# Tokens tile their source

A token says where it stands by a line, a column and a length, and a fault by a line and
a column.  Lines and columns can be counted without scanning anything: the place behind
some text is told by the newlines in it and by what stands behind the last of them
(`Position.behind`).

Read in this way, the tokens and faults of a text lie over it like tiles
(`tokens_tile_source`).  One begins where another ends but for blanks; each token covers
a spelling of itself, no more and no less; each fault gives up one character; and no
character is covered twice or left out.  However a scanner is driven, it stands at the
place of the first character that it has not read, and so does one that counts its columns
up and down as it draws characters and hands them back.
-/

namespace LineCalculator

namespace Position

/-- The place behind some text, counted from its beginning: a line for every newline, and
a column for every character behind the last newline. -/
def behind (read : List Char) : Position :=
  ⟨1 + read.count '\n', 1 + (read.reverse.takeWhile (· != '\n')).length⟩

theorem next_behind (read : List Char) (c : Char) :
    (behind read).next c = behind (read ++ [c]) := by
  unfold next behind
  by_cases hc : c = '\n'
  · simp [hc, Nat.add_assoc]
  · simp [hc, Nat.add_assoc]

theorem advance_behind (read text : List Char) :
    (behind read).advance text = behind (read ++ text) := by
  induction text generalizing read with
  | nil => simp
  | cons c text ih => rw [advance_cons, next_behind, ih, List.append_assoc, List.singleton_append]

/-- The place behind blanks and what follows them. -/
theorem advance_two {p : Position} {read : List Char} (h : p = behind read)
    (blanks more : List Char) : p.advance (blanks ++ more) = behind (read ++ blanks ++ more) := by
  rw [h, advance_behind, List.append_assoc]

theorem advance_start (text : List Char) : start.advance text = behind text :=
  advance_behind [] text

end Position

/-- Some tokens and faults lie over a text, behind the text that has been read. -/
inductive Tiles : (read rest : List Char) → List (Except ScanFault Token) → Prop
  | finished {read : List Char} : Tiles read [] []
  /-- A blank is skipped, which is no newline. -/
  | blank {read rest : List Char} {c : Char} {pieces : List (Except ScanFault Token)}
      (blank : Text.isBlank c = true) (newline : c ≠ '\n')
      (later : Tiles (read ++ [c]) rest pieces) : Tiles read (c :: rest) pieces
  /-- A token covers a spelling of itself, from where it says and as far as it says. -/
  | token {read span rest : List Char} {t : Token} {pieces : List (Except ScanFault Token)}
      (nonempty : span ≠ []) (position : t.position = .behind read)
      (length : t.length = span.length) (spelling : t.unplaced.Spelling span)
      (later : Tiles (read ++ span) rest pieces) : Tiles read (span ++ rest) (.ok t :: pieces)
  /-- A character that begins no token is given up, and its fault is placed at it. -/
  | unexpected {read rest : List Char} {c : Char} {pieces : List (Except ScanFault Token)}
      (later : Tiles (read ++ [c]) rest pieces) :
      Tiles read (c :: rest) (.error ⟨.unexpected c, .behind read⟩ :: pieces)
  /-- A character that begins a token with nothing to go on with is given up, and its fault
  is placed right behind it. -/
  | begun {read rest : List Char} {c : Char} {cause : ScanCause}
      {pieces : List (Except ScanFault Token)} (other : ∀ d, cause ≠ .unexpected d)
      (later : Tiles (read ++ [c]) rest pieces) :
      Tiles read (c :: rest) (.error ⟨cause, .behind (read ++ [c])⟩ :: pieces)

theorem Tiles.skip {read rest blanks : List Char} {pieces : List (Except ScanFault Token)}
    (hblanks : ∀ c ∈ blanks, Head.isSkipped c = true) (h : Tiles (read ++ blanks) rest pieces) :
    Tiles read (blanks ++ rest) pieces := by
  induction blanks generalizing read with
  | nil => simpa using h
  | cons c blanks ih =>
    obtain ⟨hnewline, hblank⟩ := Bool.and_eq_true_iff.1 (hblanks c List.mem_cons_self)
    refine .blank hblank (bne_iff_ne.1 hnewline) ?_
    exact ih (fun d hd => hblanks d (List.mem_cons_of_mem c hd)) (by simpa using h)

namespace Scanner

/-- What a scanner yields lies over the text that it has not read. -/
theorem tiles_pieces {s : Scanner} {read : List Char} (h : s.position = .behind read) :
    Tiles read s.rest s.pieces := by
  induction s using pieces.induct generalizing read with
  | case1 s t next hscan ih =>
    rw [pieces_of_token hscan]
    cases Step.of_scan hscan with
    | @token blanks span rest _ text blank nonempty position length wellFormed spelling =>
      have hlater := ih (Position.advance_two h blanks span)
      rw [h, Position.advance_behind] at position
      rw [text]
      exact .skip blank (.token nonempty position length spelling hlater)
  | case2 s f next hscan ih =>
    rw [pieces_of_fault hscan]
    cases Step.of_scan hscan with
    | @unexpected blanks rest c text blank =>
      have hlater := ih (Position.advance_two h blanks [c])
      rw [text, h, Position.advance_behind]
      exact .skip blank (.unexpected (h ▸ hlater))
    | @lone blanks rest c text blank bracket =>
      have hlater := ih (Position.advance_two h blanks [c])
      rw [Position.advance_two h] at hlater ⊢
      rw [text]
      exact .skip blank (.begun (ScanCause.afterLone_ne_unexpected c rest) hlater)
  | case3 s next hscan =>
    rw [pieces_of_finished hscan]
    cases Step.of_scan hscan with
    | finished blank =>
      rw [← List.append_nil s.rest]
      exact .skip blank .finished

/-- A scanner has read what is missing of a text, and stands behind it. -/
def StandsIn (s : Scanner) (text : List Char) : Prop :=
  ∃ read, read ++ s.rest = text ∧ s.position = .behind read

theorem StandsIn.scan {s : Scanner} {text : List Char} (h : s.StandsIn text) :
    s.scan.2.StandsIn text := by
  obtain ⟨read, hread, hposition⟩ := h
  obtain ⟨more, hmore, hadvance, -⟩ := s.step_scan.exists_read
  refine ⟨read ++ more, ?_, ?_⟩
  · rw [List.append_assoc, ← hmore, hread]
  · rw [hadvance, hposition, Position.advance_behind]

end Scanner

/-- **The tokens and faults of a text tile it, and a scanner knows where it stands**, also if
it counts its place by the characters that it draws and hands back. -/
theorem tokens_tile_source (text : String) :
    (∃ pieces, tokensOf pieces = tokenize text ∧ faultsOf pieces = scanFaults text ∧
      Tiles [] text.toList pieces) ∧
    (∀ requests : List Scanner.Request, ((Scanner.ofText text).drive requests).2.StandsIn
      text.toList) ∧
    ∀ n, ((Counter.ofText text).steps n).1 = ((Scanner.ofText text).steps n).1 ∧
      ((Counter.ofText text).steps n).2.scanner.StandsIn text.toList := by
  have hstart : (Scanner.ofText text).position = .behind [] := rfl
  have hstands : ∀ requests : List Scanner.Request,
      ((Scanner.ofText text).drive requests).2.StandsIn text.toList :=
    Scanner.invariant_drive (P := (·.StandsIn text.toList)) (fun s hs => hs.scan)
      ⟨[], rfl, hstart⟩
  refine ⟨⟨(Scanner.ofText text).pieces, rfl, rfl, Scanner.tiles_pieces hstart⟩, hstands,
    fun n => ?_⟩
  obtain ⟨hyielded, hscanner⟩ := Prod.mk.inj ((Counter.ofText text).steps_scanner n)
  refine ⟨hyielded.symm, ?_⟩
  rw [← hscanner]
  exact hstands (List.replicate n .scan)

end LineCalculator
