import LineCalculator.Proofs.Reading.Silence
import LineCalculator.Proofs.Scanning.LineBreak

/-!
# The tokens of the first line

A scanner goes through the whole source, newlines included, and nothing tells it
that only the first line will be read.  Yet what stands behind the first newline
has no say in the tokens before it, because no token can reach over a newline:
no name, no number and no operator goes on with one, and blanks are skipped up to
it and not beyond.

## What a newline cuts off

`Scanner.before s more` is the scanner `s` with a newline and the text `more`
behind its own text.  Where `s` reads a token, it reads the same one and goes on
in the same way; where `s` meets the end, it reads the newline (`scan_before`).
A fault stays a fault, though not always the same: a lone bracket at the end of
a text misses what is cut off, and before a newline it has found a newline.

## The feed of a text

So the feed of a text begins with the tokens of its first line, and then there
is the end of the line (`exists_endsLine_ofText`); or the first line has a fault,
and then the feed ends with a fault and never comes to a newline
(`not_endsLine_ofText`).
-/

namespace LineCalculator

/-- The text up to its first newline, or all of it if there is none. -/
def firstLine (text : String) : String := String.ofList (text.toList.takeWhile (· != '\n'))

/-! ## Scanners -/

namespace Scanner

/-- What a step of a scanner is with a newline behind its text. -/
inductive Outlasts (s : Scanner) (more : List Char) : Prop
  /-- A token stays what it is. -/
  | token (t : Token) (next : Scanner) (step : s.scan = (.token t, next))
      (kind : t.kind ≠ .newline) (clear : '\n' ∉ next.rest)
      (longer : (s.before more).scan = (.token t, next.before more))
  | fault (f f' : ScanFault) (next next' : Scanner) (step : s.scan = (.fault f, next))
      (longer : (s.before more).scan = (.fault f', next'))
  /-- Where there was nothing there is the newline, and then the text behind it. -/
  | finished (t : Token) (next next' : Scanner) (step : s.scan = (.finished, next))
      (longer : (s.before more).scan = (.token t, next')) (kind : t.kind = .newline)
      (behind : next'.rest = more)

/-- No newline is scanned where there is none. -/
theorem kind_ne_newline {s next : Scanner} {t : Token} (hscan : s.scan = (.token t, next))
    (h : '\n' ∉ s.rest) : t.kind ≠ .newline := by
  intro hkind
  cases Step.of_scan hscan with
  | token text _ _ _ _ wellFormed spelling =>
    have hmem := wellFormed.newline_mem spelling hkind
    exact h (by simp [text, hmem])

theorem scan_before {s : Scanner} (h : '\n' ∉ s.rest) (more : List Char) : s.Outlasts more := by
  rcases hscan : s.scan with ⟨t | f | _, next⟩
  · have hclear : '\n' ∉ next.rest := fun hmem => h ((Step.of_scan hscan).suffix.subset hmem)
    exact .token t next hscan (kind_ne_newline hscan h) hclear (scan_before_of_token more hscan)
  · exact .fault f _ next _ hscan (scan_before_of_fault more hscan List.suffix_rfl)
  · exact .finished _ next _ hscan (scan_before_of_finished more hscan) rfl rfl

/-- What the scanner of a line yields, with a newline and more text behind the
line: the same tokens, and then a fault, or the newline and what is behind it. -/
theorem iterate_before {s : Scanner} (h : '\n' ∉ s.rest) (more : List Char) :
    (∀ t ∈ s.iterate.1, t.kind ≠ .newline) ∧
    (s.iterate.2.1 = none → ∃ (t : Token) (next : Scanner), t.kind = .newline ∧
      next.rest = more ∧
      (s.before more).iterate = (s.iterate.1 ++ t :: next.iterate.1, next.iterate.2)) ∧
    (s.iterate.2.1 ≠ none →
      (s.before more).iterate.1 = s.iterate.1 ∧ (s.before more).iterate.2.1 ≠ none) := by
  induction hn : s.rest.length using Nat.strongRecOn generalizing s with
  | ind n ih =>
    cases scan_before h more with
    | token t next step kind clear longer =>
      have hlt : next.rest.length < n := by
        rw [← hn, ← show s.scan.2 = next by rw [step]]
        exact length_scan_lt s (by simp [step])
      obtain ⟨hkinds, hnone, hsome⟩ := ih _ hlt clear rfl
      rw [iterate_of_token step, iterate_of_token longer]
      refine ⟨?_, fun hfault => ?_, fun hfault => ?_⟩
      · intro t' ht'
        rcases List.mem_cons.1 ht' with rfl | ht'
        · exact kind
        · exact hkinds t' ht'
      · obtain ⟨t', behind, ht', hrest, hlater⟩ := hnone hfault
        exact ⟨t', behind, ht', hrest, by rw [hlater, List.cons_append]⟩
      · obtain ⟨htokens, hstill⟩ := hsome hfault
        exact ⟨by rw [htokens], hstill⟩
    | fault f f' next next' step longer =>
      rw [iterate_of_fault step, iterate_of_fault longer]
      exact ⟨by simp, by simp, by simp⟩
    | finished t next next' step longer kind behind =>
      rw [iterate_of_finished step, iterate_of_token longer]
      exact ⟨by simp, fun _ => ⟨t, next', kind, behind, rfl⟩, by simp⟩

end Scanner

/-- A text is its first line, or its first line with a newline and more text
behind. -/
theorem text_cases (text : String) :
    firstLine text = text ∨
      ∃ more, Scanner.ofText text = (Scanner.ofText (firstLine text)).before more := by
  have happ : text.toList.takeWhile (· != '\n') ++ text.toList.dropWhile (· != '\n') =
      text.toList := List.takeWhile_append_dropWhile
  cases hdrop : text.toList.dropWhile (· != '\n') with
  | nil =>
    rw [hdrop, List.append_nil] at happ
    left
    unfold firstLine
    rw [happ, String.ofList_toList]
  | cons c more =>
    have hc : c = '\n' := by
      have hhead := List.head_dropWhile_not (p := (· != '\n')) (l := text.toList) (by simp [hdrop])
      simpa [hdrop] using hhead
    right
    refine ⟨more, ?_⟩
    rw [hdrop, hc] at happ
    unfold Scanner.ofText Scanner.before firstLine
    rw [String.toList_ofList, happ]

/-- A text without a newline is its first line. -/
theorem firstLine_eq_self {text : String} (h : '\n' ∉ text.toList) : firstLine text = text := by
  unfold firstLine
  have hall : ∀ c ∈ text.toList, (c != '\n') = true := by
    intro c hc
    simpa using fun heq : c = '\n' => h (heq ▸ hc)
  rw [← List.append_nil text.toList, List.takeWhile_append_of_pos hall, List.takeWhile_nil,
    List.append_nil, String.ofList_toList]

/-- What stands behind a newline is not part of the first line. -/
theorem firstLine_append_newline (first later : String) :
    firstLine (first ++ "\n" ++ later) = firstLine first := by
  have htext : (first ++ "\n" ++ later).toList = first.toList ++ '\n' :: later.toList := by simp
  unfold firstLine
  rw [htext, takeWhile_append_cons (by decide)]

theorem newline_notMem_firstLine (text : String) : '\n' ∉ (firstLine text).toList := by
  unfold firstLine
  rw [String.toList_ofList]
  intro hmem
  have hne := List.all_eq_true.1 (List.all_takeWhile (p := (· != '\n'))) '\n' hmem
  exact absurd hne (by decide)

theorem newline_notMem_rest_firstLine (text : String) :
    '\n' ∉ (Scanner.ofText (firstLine text)).rest := by
  simpa only [Scanner.ofText] using newline_notMem_firstLine text

/-! ## Feeds -/

namespace Feed

theorem remaining_ofText (text : String) :
    (ofText text).remaining = (Scanner.ofText text).iterate.1 := rfl

theorem fault_ofText (text : String) :
    (ofText text).fault = (Scanner.ofText text).iterate.2.1 := rfl

theorem newline_notMem_tokenize {text : String} (h : scanFaults (firstLine text) = []) :
    ∀ t ∈ tokenize (firstLine text), t.kind ≠ .newline := by
  have hclear := newline_notMem_rest_firstLine text
  by_cases hfault : (Scanner.ofText (firstLine text)).iterate.2.1 = none
  · rw [(tokenize_of_iterate hfault).2]
    exact (Scanner.iterate_before hclear []).1
  · exact absurd h (scanFaults_ne_nil hfault)

/-- A feed holds the tokens of the first line, if that has no fault, and then the
end of the line. -/
theorem exists_endsLine_ofText {text : String} (h : scanFaults (firstLine text) = []) :
    ∃ rest, (ofText text).remaining = tokenize (firstLine text) ++ rest ∧
      EndsLine rest (ofText text).fault := by
  have hclear := newline_notMem_rest_firstLine text
  by_cases hfault : (Scanner.ofText (firstLine text)).iterate.2.1 = none
  · rw [remaining_ofText, fault_ofText, (tokenize_of_iterate hfault).2]
    rcases text_cases text with heq | ⟨more, hmore⟩
    · rw [heq] at hfault ⊢
      exact ⟨[], (List.append_nil _).symm, Or.inl ⟨rfl, hfault⟩⟩
    · obtain ⟨t, next, ht, -, hlater⟩ := (Scanner.iterate_before hclear more).2.1 hfault
      rw [hmore, hlater]
      exact ⟨t :: next.iterate.1, rfl, Or.inr ⟨t, next.iterate.1, rfl, ht⟩⟩
  · exact absurd h (scanFaults_ne_nil hfault)

/-- A feed does not come to the end of a first line with a fault. -/
theorem not_endsLine_ofText {text : String} (h : scanFaults (firstLine text) ≠ [])
    {ts rest : List Token} (htokens : (ofText text).remaining = ts ++ rest) :
    ¬ EndsLine rest (ofText text).fault := by
  have hclear := newline_notMem_rest_firstLine text
  have hfault : (Scanner.ofText (firstLine text)).iterate.2.1 ≠ none := fun hnone =>
    h (tokenize_of_iterate hnone).1
  have hkinds := (Scanner.iterate_before hclear []).1
  have hsame : (ofText text).remaining = (Scanner.ofText (firstLine text)).iterate.1 ∧
      (ofText text).fault ≠ none := by
    rw [remaining_ofText, fault_ofText]
    rcases text_cases text with heq | ⟨more, hmore⟩
    · rw [heq] at hfault ⊢
      exact ⟨rfl, hfault⟩
    · rw [hmore]
      exact (Scanner.iterate_before hclear more).2.2 hfault
  rintro (⟨-, hnone⟩ | ⟨t, later, rfl, ht⟩)
  · exact hsame.2 hnone
  · have hmem : t ∈ (ofText text).remaining := htokens ▸ List.mem_append_right ts List.mem_cons_self
    rw [hsame.1] at hmem
    exact hkinds t hmem ht

end Feed

end LineCalculator
