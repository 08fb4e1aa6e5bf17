import LineCalculator.Proofs.Scanning.Steps

/-!
# All ways of driving a scanner agree

A scanner may be asked for single steps and for steps until one yields no token, in any
order and as often as one likes.  What it has yielded by then is always a beginning of
what `pieces` yields in one go, and all of it once the end has been met (`Agrees`).

Because every sequence of requests comes to a number of single steps, all of this is
proved for a number of steps.  Three facts about one step carry it: what a scanner yields
in one go is what a step yields and then what the scanner behind the step yields
(`pieces_eq_respond`); a step sets the mark of failure if and only if it reports a fault
(`failed_respond_iff`); and where the end has been met nothing is left to read (`Ended`).

How many steps it takes to meet the end is known as well: one for each token, one for each
fault, and one more (`exhausted_steps_iff`).
-/

namespace LineCalculator

theorem length_eq_tokensOf_add_faultsOf (pieces : List (Except ScanFault Token)) :
    pieces.length = (tokensOf pieces).length + (faultsOf pieces).length := by
  induction pieces with
  | nil => rfl
  | cons piece pieces ih =>
    cases piece with
    | ok t => simp only [tokensOf_ok, faultsOf_ok, List.length_cons]; omega
    | error f => simp only [tokensOf_error, faultsOf_error, List.length_cons]; omega

namespace Scanner

/-! ## One step -/

/-- Where the end has been met, nothing is left to read. -/
def Ended (s : Scanner) : Prop := s.exhausted = true → s.rest = []

theorem Ended.scan {s : Scanner} (h : s.Ended) : s.scan.2.Ended := by
  intro hexhausted
  have hstep := s.step_scan
  generalize s.scan.1 = result at hstep
  generalize s.scan.2 = next at hstep hexhausted ⊢
  cases hstep with
  | token text => simp_all [Ended]
  | unexpected text => simp_all [Ended]
  | lone text => simp_all [Ended]
  | finished => rfl

/-- A step that finds something to read finds that the end has not been met. -/
theorem Ended.not_exhausted {s : Scanner} (h : s.Ended) (hscan : s.scan.1 ≠ .finished) :
    s.exhausted = false := by
  by_contra hexhausted
  rw [scan_of_rest_eq_nil (h (Bool.not_eq_false _ ▸ hexhausted))] at hscan
  exact hscan rfl

/-- What a scanner yields in one go begins with what a step yields. -/
theorem pieces_eq_respond (s : Scanner) :
    s.pieces = (s.respond .scan).1 ++ (s.respond .scan).2.pieces := by
  rcases hscan : s.scan with ⟨t | f | _, next⟩
  · rw [pieces_of_token hscan, respond_of_token hscan, List.singleton_append]
  · rw [pieces_of_fault hscan, respond_of_fault hscan, List.singleton_append]
  · rw [pieces_of_finished hscan, respond_of_finished hscan, List.nil_append]
    cases Step.of_scan hscan with
    | finished => rw [pieces_of_finished (scan_of_rest_eq_nil rfl)]

theorem failed_respond_iff (s : Scanner) : (s.respond .scan).2.failed = true ↔
    s.failed = true ∨ faultsOf (s.respond .scan).1 ≠ [] := by
  rcases hscan : s.scan with ⟨t | f | _, next⟩
  · rw [respond_of_token hscan]
    cases Step.of_scan hscan with
    | token => simp
  · rw [respond_of_fault hscan]
    cases Step.of_scan hscan with
    | unexpected => simp
    | lone => simp
  · rw [respond_of_finished hscan]
    cases Step.of_scan hscan with
    | finished => simp

/-! ## Any number of steps -/

theorem pieces_eq_steps (s : Scanner) (n : Nat) :
    s.pieces = (s.steps n).1 ++ (s.steps n).2.pieces := by
  induction n generalizing s with
  | zero => rfl
  | succ n ih =>
    rw [steps_succ, List.append_assoc, ← ih, ← pieces_eq_respond]

theorem failed_steps_iff (s : Scanner) (n : Nat) :
    (s.steps n).2.failed = true ↔ s.failed = true ∨ faultsOf (s.steps n).1 ≠ [] := by
  induction n generalizing s with
  | zero => simp
  | succ n ih =>
    simp only [steps_succ, ih, failed_respond_iff, faultsOf_append, ne_eq, List.append_eq_nil_iff,
      Classical.not_and_iff_not_or_not, or_assoc]

/-- Where nothing is left to read and the end has been met, nothing changes. -/
theorem steps_of_rest_eq_nil {s : Scanner} (hrest : s.rest = []) (hexhausted : s.exhausted = true)
    (n : Nat) : s.steps n = ([], s) := by
  have hscan := scan_of_rest_eq_nil hrest
  rw [← hexhausted] at hscan
  induction n with
  | zero => rfl
  | succ n ih => rw [steps_succ, respond_of_finished hscan, ih, List.nil_append]

theorem length_pieces_le (s : Scanner) : s.pieces.length ≤ s.rest.length := by
  induction s using pieces.induct with
  | case1 s t next hscan ih =>
    have hlt := length_scan_lt s (by simp [hscan])
    rw [hscan] at hlt
    rw [pieces_of_token hscan]
    exact Nat.lt_of_le_of_lt ih hlt
  | case2 s f next hscan ih =>
    have hlt := length_scan_lt s (by simp [hscan])
    rw [hscan] at hlt
    rw [pieces_of_fault hscan]
    exact Nat.lt_of_le_of_lt ih hlt
  | case3 s next hscan =>
    rw [pieces_of_finished hscan]
    exact Nat.zero_le _

/-- The end is met by the step behind those that yield something. -/
theorem exhausted_steps_iff {s : Scanner} (h : s.exhausted = false) (n : Nat) :
    (s.steps n).2.exhausted = true ↔ s.pieces.length < n := by
  induction n generalizing s with
  | zero => simp [h]
  | succ n ih =>
    rcases hscan : s.scan with ⟨t | f | _, next⟩
    · have hnext : next.exhausted = false := by
        cases Step.of_scan hscan with
        | token => exact h
      rw [steps_succ, respond_of_token hscan, pieces_of_token hscan, ih hnext, List.length_cons,
        Nat.add_lt_add_iff_right]
    · have hnext : next.exhausted = false := by
        cases Step.of_scan hscan with
        | unexpected => exact h
        | lone => exact h
      rw [steps_succ, respond_of_fault hscan, pieces_of_fault hscan, ih hnext, List.length_cons,
        Nat.add_lt_add_iff_right]
    · have hnext : next.rest = [] ∧ next.exhausted = true := by
        cases Step.of_scan hscan with
        | finished => exact ⟨rfl, rfl⟩
      rw [steps_succ, respond_of_finished hscan, pieces_of_finished hscan,
        steps_of_rest_eq_nil hnext.1 hnext.2]
      simp [hnext.2]

/-! ## Every way of driving -/

/-- How a scanner stands that has been driven over a text and has yielded some tokens and
faults. -/
structure Agrees (text : String) (yielded : List (Except ScanFault Token)) (s : Scanner) :
    Prop where
  /-- What it has yielded begins what the text yields in one go. -/
  tokens : tokensOf yielded <+: tokenize text
  faults : faultsOf yielded <+: scanFaults text
  /-- At the end it has yielded all. -/
  complete : s.exhausted = true →
    tokensOf yielded = tokenize text ∧ faultsOf yielded = scanFaults text
  /-- It has failed if a fault has been reported, and otherwise not. -/
  failed_iff : s.failed = true ↔ faultsOf yielded ≠ []
  /-- A step without a token has met the end and reports nothing, or has failed and reports
  one fault. -/
  silent : tokensOf (s.respond .scan).1 = [] →
    (s.respond .scan).2.exhausted = true ∧ faultsOf (s.respond .scan).1 = [] ∨
    (s.respond .scan).2.exhausted = false ∧ (s.respond .scan).2.failed = true ∧
      ∃ f, faultsOf (s.respond .scan).1 = [f]
  /-- Going on takes steps as long as they yield tokens, and the first that yields none is
  the last. -/
  iterates : ∃ (ts : List Token) (last : Scanner), s.steps ts.length = (ts.map .ok, last) ∧
    tokensOf (last.respond .scan).1 = [] ∧
    s.respond .iterate = (ts.map .ok ++ (last.respond .scan).1, (last.respond .scan).2)
  /-- A step that does not meet the end reads something. -/
  reads : (s.respond .scan).2.exhausted = false →
    ∃ read, read ≠ [] ∧ s.rest = read ++ (s.respond .scan).2.rest
  /-- At the end nothing more is yielded and nothing changes. -/
  afterEnd : s.exhausted = true → ∀ requests, s.drive requests = ([], s)

theorem tokensOf_respond_eq_nil {s : Scanner} (h : ∀ t, s.scan.1 ≠ .token t) :
    tokensOf (s.respond .scan).1 = [] := by
  rcases hscan : s.scan with ⟨t | f | _, next⟩
  · exact absurd (congrArg Prod.fst hscan) (h t)
  · rw [respond_of_fault hscan]
    rfl
  · rw [respond_of_finished hscan]
    rfl

theorem Ended.silent {s : Scanner} (h : s.Ended) (hsilent : tokensOf (s.respond .scan).1 = []) :
    (s.respond .scan).2.exhausted = true ∧ faultsOf (s.respond .scan).1 = [] ∨
    (s.respond .scan).2.exhausted = false ∧ (s.respond .scan).2.failed = true ∧
      ∃ f, faultsOf (s.respond .scan).1 = [f] := by
  rcases hscan : s.scan with ⟨t | f | _, next⟩
  · rw [respond_of_token hscan] at hsilent
    cases hsilent
  · have hopen := h.not_exhausted (by simp [hscan])
    rw [respond_of_fault hscan]
    right
    cases Step.of_scan hscan with
    | unexpected => exact ⟨hopen, rfl, _, rfl⟩
    | lone => exact ⟨hopen, rfl, _, rfl⟩
  · rw [respond_of_finished hscan]
    left
    cases Step.of_scan hscan with
    | finished => exact ⟨rfl, rfl⟩

theorem exists_read_of_open {s : Scanner} (h : (s.respond .scan).2.exhausted = false) :
    ∃ read, read ≠ [] ∧ s.rest = read ++ (s.respond .scan).2.rest := by
  rw [snd_respond_scan] at h ⊢
  obtain ⟨read, hread, -, hne⟩ := s.step_scan.exists_read
  refine ⟨read, hne fun hfinished => ?_, hread⟩
  have hstep := s.step_scan
  rw [hfinished] at hstep
  generalize s.scan.2 = next at hstep h
  cases hstep
  cases h

theorem agrees_steps (text : String) (n : Nat) :
    Agrees text ((ofText text).steps n).1 ((ofText text).steps n).2 := by
  have hpieces := (ofText text).pieces_eq_steps n
  have hfailed := (ofText text).failed_steps_iff n
  have hended : ((ofText text).steps n).2.Ended :=
    invariant_drive (P := Ended) (fun s hs => hs.scan) (fun h => by cases h) _
  generalize (ofText text).steps n = run at hpieces hfailed hended ⊢
  obtain ⟨yielded, s⟩ := run
  dsimp only at hpieces hfailed hended ⊢
  have htokens : tokenize text = tokensOf yielded ++ tokensOf s.pieces := by
    rw [tokenize_eq_tokensOf, hpieces, tokensOf_append]
  have hfaults : scanFaults text = faultsOf yielded ++ faultsOf s.pieces := by
    rw [scanFaults_eq_faultsOf, hpieces, faultsOf_append]
  constructor
  case tokens => exact htokens ▸ List.prefix_append _ _
  case faults => exact hfaults ▸ List.prefix_append _ _
  case complete =>
    intro hexhausted
    rw [htokens, hfaults, pieces_of_finished (scan_of_rest_eq_nil (hended hexhausted))]
    simp
  case failed_iff => simpa [ofText] using hfailed
  case silent => exact hended.silent
  case iterates =>
    obtain ⟨ts, last, hsteps, hlast, hiterate⟩ := s.respond_iterate
    exact ⟨ts, last, hsteps, tokensOf_respond_eq_nil hlast, hiterate⟩
  case reads => exact exists_read_of_open
  case afterEnd =>
    intro hexhausted requests
    obtain ⟨m, hm⟩ := s.exists_drive_eq requests
    rw [hm, steps_of_rest_eq_nil (hended hexhausted) hexhausted]

end Scanner

/-- **Every way of driving a scanner agrees with going through the text in one go**, which
takes one step for each token and each fault and one more, and so at most one step for each
character and one more. -/
theorem driving_agrees (text : String) :
    (∀ requests : List Scanner.Request, Scanner.Agrees text
      ((Scanner.ofText text).drive requests).1 ((Scanner.ofText text).drive requests).2) ∧
    (tokenize text).length + (scanFaults text).length ≤ text.length ∧
    ∀ n, ((Scanner.ofText text).steps n).2.exhausted = true ↔
      (tokenize text).length + (scanFaults text).length + 1 ≤ n := by
  have hlength : (Scanner.ofText text).pieces.length =
      (tokenize text).length + (scanFaults text).length :=
    length_eq_tokensOf_add_faultsOf _
  refine ⟨fun requests => ?_, ?_, fun n => ?_⟩
  · obtain ⟨n, hn⟩ := (Scanner.ofText text).exists_drive_eq requests
    rw [hn]
    exact Scanner.agrees_steps text n
  · rw [← hlength, ← String.length_toList]
    exact (Scanner.ofText text).length_pieces_le
  · rw [← hlength, Nat.succ_le_iff]
    exact Scanner.exhausted_steps_iff rfl n

end LineCalculator
