import LineCalculator.Proofs.Scanning.Pieces
import LineCalculator.Proofs.Scanning.Spelling

/-!
# What a step of a scanner does

All that the other modules need to know of a step is in `Scanner.Step`: which blanks are
skipped, which characters are read and as what, what is said of them and where, and how
the scanner then stands.  Every step is of this kind (`Scanner.step_scan`), and whatever
one step keeps is kept however often and in whatever way the scanner is asked to go on
(`Scanner.invariant_drive`).

## Two ways of asking

A scanner takes a single step, or steps until one of them yields no token.  The second is
no new ability: it comes to a number of single steps (`Scanner.respond_iterate`), and so
does every sequence of such requests (`Scanner.exists_drive_eq`).  What is proved for any
number of steps is therefore proved for every way of driving a scanner.
-/

namespace LineCalculator

namespace Scanner

/-- What a step does that has the given result and leaves the given scanner. -/
inductive Step (s : Scanner) : Scan → Scanner → Prop
  /-- Blanks are skipped, and the spelling of a token is read. -/
  | token {blanks span rest : List Char} {t : Token} (text : s.rest = blanks ++ (span ++ rest))
      (blank : ∀ c ∈ blanks, Head.isSkipped c = true) (nonempty : span ≠ [])
      (position : t.position = s.position.advance blanks) (length : t.length = span.length)
      (wellFormed : t.unplaced.WellFormed) (spelling : t.unplaced.Spelling span) :
      Step s (.token t) ⟨rest, s.position.advance (blanks ++ span), s.failed, s.exhausted⟩
  /-- Blanks are skipped, and a character is given up that begins no token. -/
  | unexpected {blanks rest : List Char} {c : Char} (text : s.rest = blanks ++ c :: rest)
      (blank : ∀ c ∈ blanks, Head.isSkipped c = true) :
      Step s (.fault ⟨.unexpected c, s.position.advance blanks⟩)
        ⟨rest, s.position.advance (blanks ++ [c]), true, s.exhausted⟩
  /-- Blanks are skipped, and an angle bracket is given up that is not doubled. -/
  | lone {blanks rest : List Char} {c : Char} (text : s.rest = blanks ++ c :: rest)
      (blank : ∀ c ∈ blanks, Head.isSkipped c = true) (bracket : c = '<' ∨ c = '>') :
      Step s (.fault ⟨.afterLone c rest, s.position.advance (blanks ++ [c])⟩)
        ⟨rest, s.position.advance (blanks ++ [c]), true, s.exhausted⟩
  /-- Only blanks are left. -/
  | finished (blank : ∀ c ∈ s.rest, Head.isSkipped c = true) :
      Step s .finished ⟨[], s.position.advance s.rest, s.failed, true⟩

/-- A bracket that is not doubled has its fault behind it. -/
theorem faultPosition_afterLone (bracket : Char) (text : List Char) (first after : Position) :
    faultPosition (.afterLone bracket text) first after = after := by
  cases text <;> rfl

/-- **Every step is of one of the four kinds.** -/
theorem step_scan (s : Scanner) : s.Step s.scan.1 s.scan.2 := by
  have htext : s.rest.takeWhile Head.isSkipped ++ s.rest.dropWhile Head.isSkipped = s.rest :=
    List.takeWhile_append_dropWhile
  have hblank : ∀ c ∈ s.rest.takeWhile Head.isSkipped, Head.isSkipped c = true :=
    fun c hc => List.all_eq_true.1 List.all_takeWhile c hc
  unfold scan
  dsimp only
  generalize s.rest.takeWhile Head.isSkipped = blanks at htext hblank ⊢
  cases hdrop : s.rest.dropWhile Head.isSkipped with
  | nil =>
    rw [hdrop, List.append_nil] at htext
    rw [htext] at hblank ⊢
    exact .finished hblank
  | cons c tail =>
    rw [hdrop] at htext
    have hspan := Head.span_append_rest c tail
    have hne := Head.span_ne_nil c tail
    have hreads := Head.reads_read c tail
    dsimp only
    generalize Head.read c tail = head at hspan hne hreads ⊢
    cases hreads with
    | token wellFormed spelling =>
      dsimp only at hspan ⊢
      rw [← Position.advance_append]
      refine .token (by rw [hspan, htext]) hblank hne rfl rfl ?_ ?_
      · simpa [Token.unplaced] using wellFormed
      · simpa [Token.unplaced] using spelling
    | unexpected =>
      dsimp only [faultPosition]
      rw [← Position.advance_append]
      exact .unexpected htext.symm hblank
    | lone bracket =>
      dsimp only
      rw [faultPosition_afterLone, ← Position.advance_append]
      exact .lone htext.symm hblank bracket

theorem Step.of_scan {s next : Scanner} {result : Scan} (h : s.scan = (result, next)) :
    s.Step result next := by
  have hstep := s.step_scan
  rwa [h] at hstep

/-- A step reads some of the characters, and a step that does not find the end reads at
least one. -/
theorem Step.exists_read {s next : Scanner} {result : Scan} (h : s.Step result next) :
    ∃ read, s.rest = read ++ next.rest ∧ next.position = s.position.advance read ∧
      (result ≠ .finished → read ≠ []) := by
  cases h with
  | token text _ nonempty => exact ⟨_, by simp [text], rfl, by simp [nonempty]⟩
  | unexpected text => exact ⟨_, by simp [text], rfl, by simp⟩
  | lone text => exact ⟨_, by simp [text], rfl, by simp⟩
  | finished => exact ⟨s.rest, by simp, rfl, by simp⟩

theorem Step.suffix {s next : Scanner} {result : Scan} (h : s.Step result next) :
    next.rest <:+ s.rest := by
  obtain ⟨read, hread, -⟩ := h.exists_read
  exact ⟨read, hread.symm⟩

/-- The place behind a scanner's text. -/
def ending (s : Scanner) : Position := s.position.advance s.rest

/-- A step does not move the end. -/
theorem Step.ending_eq {s next : Scanner} {result : Scan} (h : s.Step result next) :
    next.ending = s.ending := by
  obtain ⟨read, hread, hposition, -⟩ := h.exists_read
  unfold ending
  rw [hposition, hread, Position.advance_append]

/-! ## Driving a scanner -/

/-- What can be asked of a scanner. -/
inductive Request where
  /-- To take one step. -/
  | scan
  /-- To take steps until one yields no token. -/
  | iterate

/-- The tokens and faults that a request yields, in their order, and the scanner after
it. -/
def respond (s : Scanner) : Request → List (Except ScanFault Token) × Scanner
  | .scan =>
    match s.scan with
    | (.token t, next) => ([.ok t], next)
    | (.fault f, next) => ([.error f], next)
    | (.finished, next) => ([], next)
  | .iterate => (s.iterate.1.map .ok ++ s.iterate.2.1.toList.map .error, s.iterate.2.2)

/-- The tokens and faults that some requests yield one after the other, and the scanner
after them. -/
def drive (s : Scanner) : List Request → List (Except ScanFault Token) × Scanner
  | [] => ([], s)
  | request :: later =>
    ((s.respond request).1 ++ ((s.respond request).2.drive later).1,
      ((s.respond request).2.drive later).2)

/-- The scanner and what it has yielded after a number of single steps. -/
def steps (s : Scanner) (n : Nat) : List (Except ScanFault Token) × Scanner :=
  s.drive (List.replicate n .scan)

section Respond

variable {s next : Scanner}

theorem respond_of_token {t : Token} (h : s.scan = (.token t, next)) :
    s.respond .scan = ([.ok t], next) := by
  simp [respond, h]

theorem respond_of_fault {f : ScanFault} (h : s.scan = (.fault f, next)) :
    s.respond .scan = ([.error f], next) := by
  simp [respond, h]

theorem respond_of_finished (h : s.scan = (.finished, next)) : s.respond .scan = ([], next) := by
  simp [respond, h]

end Respond

theorem snd_respond_scan (s : Scanner) : (s.respond .scan).2 = s.scan.2 := by
  unfold respond
  dsimp only
  split <;> simp_all

@[simp] theorem steps_zero (s : Scanner) : s.steps 0 = ([], s) := rfl

theorem drive_append (s : Scanner) (first later : List Request) :
    s.drive (first ++ later) = ((s.drive first).1 ++ ((s.drive first).2.drive later).1,
      ((s.drive first).2.drive later).2) := by
  induction first generalizing s with
  | nil => rfl
  | cons request first ih =>
    simp only [List.cons_append, drive, ih, List.append_assoc]

theorem steps_one (s : Scanner) : s.steps 1 = s.respond .scan := by
  simp [steps, drive]

theorem steps_add (s : Scanner) (m n : Nat) :
    s.steps (m + n) = ((s.steps m).1 ++ ((s.steps m).2.steps n).1, ((s.steps m).2.steps n).2) := by
  unfold steps
  rw [List.replicate_add, drive_append]

theorem steps_succ (s : Scanner) (n : Nat) :
    s.steps (n + 1) = ((s.respond .scan).1 ++ ((s.respond .scan).2.steps n).1,
      ((s.respond .scan).2.steps n).2) := rfl

/-- Going on until a step yields no token is taking as many steps as yield one, and one
more. -/
theorem respond_iterate (s : Scanner) :
    ∃ (ts : List Token) (last : Scanner), s.steps ts.length = (ts.map .ok, last) ∧
      (∀ t, last.scan.1 ≠ .token t) ∧
      s.respond .iterate = (ts.map .ok ++ (last.respond .scan).1, (last.respond .scan).2) := by
  induction s using iterate.induct with
  | case1 s t next hstep ih =>
    obtain ⟨ts, last, hsteps, hlast, hiterate⟩ := ih
    refine ⟨t :: ts, last, ?_, hlast, ?_⟩
    · rw [List.length_cons, steps_succ, respond_of_token hstep, hsteps]
      rfl
    · obtain ⟨hpieces, hnext⟩ := Prod.mk.inj hiterate
      unfold respond at *
      dsimp only at *
      rw [iterate_of_token hstep]
      simp [hpieces, hnext]
  | case2 s f next hstep =>
    refine ⟨[], s, rfl, by simp [hstep], ?_⟩
    simp [respond, hstep, iterate_of_fault hstep]
  | case3 s next hstep =>
    refine ⟨[], s, rfl, by simp [hstep], ?_⟩
    simp [respond, hstep, iterate_of_finished hstep]

/-- **Every way of driving a scanner comes to a number of single steps.** -/
theorem exists_drive_eq (s : Scanner) (requests : List Request) :
    ∃ n, s.drive requests = s.steps n := by
  induction requests generalizing s with
  | nil => exact ⟨0, rfl⟩
  | cons request later ih =>
    have hfirst : ∃ n, s.respond request = s.steps n := by
      cases request with
      | scan => exact ⟨1, s.steps_one.symm⟩
      | iterate =>
        obtain ⟨ts, last, hsteps, -, hiterate⟩ := s.respond_iterate
        refine ⟨ts.length + 1, ?_⟩
        rw [steps_add, hsteps, hiterate, steps_one]
    obtain ⟨m, hm⟩ := hfirst
    obtain ⟨n, hn⟩ := ih (s.respond request).2
    refine ⟨m + n, ?_⟩
    rw [drive, hn, steps_add, hm]

/-- What every step keeps is kept in every way of driving a scanner. -/
theorem invariant_drive {P : Scanner → Prop} (hkeep : ∀ s : Scanner, P s → P s.scan.2)
    {s : Scanner} (h : P s) (requests : List Request) : P (s.drive requests).2 := by
  obtain ⟨n, hn⟩ := s.exists_drive_eq requests
  rw [hn]
  clear hn
  induction n generalizing s with
  | zero => exact h
  | succ n ih =>
    rw [steps_succ, snd_respond_scan]
    exact ih (hkeep s h)

end Scanner

end LineCalculator
