import LineCalculator.Proofs.Scanning.Pieces
import LineCalculator.Proofs.Scanning.Separators

/-!
# Texts without faults

Of a text that is scanned without a fault it can be said step by step what it is scanned as: some
blanks, a token, and what is left behind it, or blanks only (`ScansAs`).  Scanning says this of
every such text (`scansAs_of_scanFaults`), and what is said of a text is what is scanned
(`tokenize_of_scansAs`), wherever the text stands.

So texts can be put together.  No token goes on with a blank (`Head.separates_of_isSkipped`), and
so a text and another one that begins with a blank are scanned as the tokens of the first and then
the tokens of the second (`ScansAs.append`).  Nothing is asked of the tokens within each of the
texts: they may stand side by side.
-/

namespace LineCalculator

/-- A text is scanned as some tokens, without a fault. -/
inductive ScansAs : List Unplaced → List Char → Prop
  | blanks {text : List Char} (blank : ∀ c ∈ text, Head.isSkipped c = true) : ScansAs [] text
  | token {u : Unplaced} {us : List Unplaced} {gap tail : List Char} {c : Char}
      (blank : ∀ c ∈ gap, Head.isSkipped c = true) (first : Head.isSkipped c = false)
      (content : (Head.read c tail).content = .token u.kind u.form u.lexeme)
      (later : ScansAs us (Head.read c tail).rest) : ScansAs (u :: us) (gap ++ c :: tail)

/-! ## What is scanned -/

namespace Scanner

/-- What a text is scanned as is what is scanned. -/
theorem pieces_of_scansAs {us : List Unplaced} {s : Scanner} (h : ScansAs us s.rest) :
    (tokensOf s.pieces).map Token.unplaced = us ∧ faultsOf s.pieces = [] := by
  generalize hs : s.rest = text at h
  induction h generalizing s with
  | blanks blank =>
    have hdrop : s.rest.dropWhile Head.isSkipped = [] := by
      rw [hs]
      exact List.dropWhile_eq_nil_iff.2 blank
    rw [pieces_of_finished (scan_of_nil hdrop)]
    exact ⟨rfl, rfl⟩
  | @token u us gap tail c blank first content _ ih =>
    have hdrop : s.rest.dropWhile Head.isSkipped = c :: tail := by
      rw [hs, List.dropWhile_append_of_pos blank, List.dropWhile_cons_of_neg (by simp [first])]
    rw [pieces_of_token (scan_of_token hdrop content), tokensOf_ok, faultsOf_ok, List.map_cons]
    obtain ⟨htokens, hfaults⟩ := ih (s := ⟨_, _, _, _⟩) rfl
    rw [htokens]
    refine ⟨?_, hfaults⟩
    simp [Token.unplaced]

/-- A text without a fault is scanned as its tokens. -/
theorem scansAs_of_faultsOf {s : Scanner} (h : faultsOf s.pieces = []) :
    ScansAs ((tokensOf s.pieces).map Token.unplaced) s.rest := by
  induction s using pieces.induct with
  | case1 s t next hscan ih =>
    rw [pieces_of_token hscan] at h ⊢
    have hlater := ih h
    rw [tokensOf_ok, List.map_cons]
    have hsplit := List.takeWhile_append_dropWhile (p := Head.isSkipped) (l := s.rest)
    cases hdrop : s.rest.dropWhile Head.isSkipped with
    | nil =>
      rw [scan_of_nil hdrop] at hscan
      cases hscan
    | cons c tail =>
      have hfirst := List.head?_dropWhile_not Head.isSkipped s.rest
      rw [hdrop] at hfirst hsplit
      cases hcontent : (Head.read c tail).content with
      | fault cause =>
        rw [scan_of_fault hdrop hcontent] at hscan
        cases hscan
      | token kind form lexeme =>
        rw [scan_of_token hdrop hcontent] at hscan
        cases hscan
        rw [← hsplit]
        refine .token (fun d hd => List.mem_takeWhile_imp hd) hfirst ?_ hlater
        rw [hcontent]
        simp [Token.unplaced]
  | case2 s f next hscan ih =>
    rw [pieces_of_fault hscan, faultsOf_error] at h
    cases h
  | case3 s next hscan =>
    rw [pieces_of_finished hscan]
    cases hdrop : s.rest.dropWhile Head.isSkipped with
    | nil => exact .blanks (List.dropWhile_eq_nil_iff.1 hdrop)
    | cons c tail =>
      cases hcontent : (Head.read c tail).content with
      | fault cause =>
        rw [scan_of_fault hdrop hcontent] at hscan
        cases hscan
      | token kind form lexeme =>
        rw [scan_of_token hdrop hcontent] at hscan
        cases hscan

end Scanner

theorem tokenize_of_scansAs {us : List Unplaced} {text : String} (h : ScansAs us text.toList) :
    scanFaults text = [] ∧ (tokenize text).map Token.unplaced = us :=
  (Scanner.pieces_of_scansAs (s := .ofText text) h).symm

theorem scansAs_of_scanFaults {text : String} (h : scanFaults text = []) :
    ScansAs ((tokenize text).map Token.unplaced) text.toList :=
  Scanner.scansAs_of_faultsOf (s := .ofText text) h

/-! ## Putting texts together -/

/-- A token before a blank is the token that it is at the end. -/
theorem Head.read_append_of_token {c : Char} {tail more lexeme : List Char} {kind : TokenKind}
    {form : NumberForm} (hcontent : (read c tail).content = .token kind form lexeme)
    (happart : ∀ x ∈ more.head?, isSkipped x = true) :
    (read c (tail ++ more)).content = .token kind form lexeme ∧
      (read c (tail ++ more)).rest = (read c tail).rest ++ more := by
  cases more with
  | nil =>
    rw [List.append_nil, List.append_nil]
    exact ⟨hcontent, rfl⟩
  | cons x more =>
    by_cases hc : c = '\n'
    · -- a newline is a token whatever follows
      subst hc
      exact ⟨hcontent, rfl⟩
    · rcases read_append (separates_of_isSkipped (happart x rfl)) hc tail more with
        ⟨_, _, _, _, _, hlonger⟩ | ⟨cause, _, hcause, _⟩
      · rw [hlonger]
        exact ⟨hcontent, rfl⟩
      · rw [hcontent] at hcause
        cases hcause

namespace ScansAs

variable {us vs : List Unplaced} {text more : List Char}

/-- Blanks may be put in front. -/
theorem blanks_append (hblank : ∀ c ∈ more, Head.isSkipped c = true) (h : ScansAs us text) :
    ScansAs us (more ++ text) := by
  cases h with
  | blanks blank => exact .blanks (List.forall_mem_append.2 ⟨hblank, blank⟩)
  | token blank first content later =>
    rw [← List.append_assoc]
    exact .token (List.forall_mem_append.2 ⟨hblank, blank⟩) first content later

/-- **With a blank between them**, texts are scanned one after the other. -/
theorem append (h : ScansAs us text) (hmore : ScansAs vs more)
    (happart : ∀ x ∈ more.head?, Head.isSkipped x = true) : ScansAs (us ++ vs) (text ++ more) := by
  induction h with
  | blanks blank => exact hmore.blanks_append blank
  | token blank first content _ ih =>
    obtain ⟨hcontent, hrest⟩ := Head.read_append_of_token content happart
    rw [List.append_assoc, List.cons_append]
    exact .token blank first hcontent (hrest ▸ ih)

end ScansAs

end LineCalculator
