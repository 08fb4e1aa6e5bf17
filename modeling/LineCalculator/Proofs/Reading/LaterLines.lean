import LineCalculator.Proofs.Reading.NextLine

/-!
# What stands behind the first line of a text

Whether the lines behind the first one can change what is read of a text.  They can if
and only if reading the first line alone has reported the end of input and yet has come
to a line, or has reported it more than once (`parse_ignores_later_lines_iff`).

The reason is a missing operand at the end of the first line.  In search of it the newline
is drawn, and reading goes on behind the newline.  It takes no more than closing brackets
there to see the difference: with as many as the first line has left open there is a line,
and with one more there is none.

Where the first line has a fault, the fault is met before its newline, and nothing is read
of the text with or without further lines.
-/

namespace LineCalculator

namespace Scanner

/-- Closing brackets are scanned as such. -/
theorem iterate_brackets (n : Nat) {s : Scanner} (h : s.rest = List.replicate n ')') :
    Brackets n s.iterate.1 ∧ s.iterate.2.1 = none := by
  induction n generalizing s with
  | zero =>
    have hdrop : s.rest.dropWhile Head.isSkipped = [] := by rw [h]; rfl
    rw [iterate_of_finished (scan_of_nil hdrop)]
    exact ⟨rfl, rfl⟩
  | succ n ih =>
    have hdrop : s.rest.dropWhile Head.isSkipped = ')' :: List.replicate n ')' := by
      rw [h, List.replicate_succ]
      exact List.dropWhile_cons_of_neg (by decide)
    rw [iterate_of_token (scan_of_token hdrop rfl)]
    obtain ⟨hkinds, hfault⟩ := ih (s := ⟨List.replicate n ')', s.first.advance [')'], s.failed,
      s.exhausted⟩) rfl
    exact ⟨congrArg (List.cons TokenKind.closeBracket) hkinds, hfault⟩

end Scanner

/-! ## Texts without a fault on the first line -/

/-- The feed of a text holds the tokens of the first line, and then what is behind it. -/
theorem Feed.holds_ofText_append {first : String} (h : '\n' ∉ first.toList)
    (hfault : (ofText first).fault = none) (later : String) :
    ∃ (next : NextLine) (s : Scanner), s.rest = later.toList ∧ next.later = s.iterate.1 ∧
      next.fault = s.iterate.2.1 ∧
      (ofText (first ++ "\n" ++ later)).Holds ((ofText first).remaining ++ next.tokens)
        next.fault := by
  obtain ⟨t, s, ht, hrest, hiterate⟩ :=
    (Scanner.iterate_before (s := Scanner.ofText first) h later.toList).2.1 hfault
  rw [← Scanner.ofText_append_newline] at hiterate
  refine ⟨⟨t, ht, s.iterate.1, s.iterate.2.1⟩, s, hrest, rfl, rfl, ⟨?_, ?_, rfl⟩⟩
  · rw [remaining_ofText, hiterate]
    rfl
  · rw [fault_ofText, hiterate]

/-- Reading a text is reading the feed with bounds that are greater by what is behind the
first line. -/
theorem parse_of_holds {text : String} {ts : List Token} {next : NextLine}
    (h : (Feed.ofText text).Holds (ts ++ next.tokens) next.fault) :
    parse text = Parse.ofResult
      (Reader.line (next.tokens.length + (ts.length + 1)) Parse.room (Feed.ofText text)) := by
  have hlength : (Feed.ofText text).remaining.length + 1 =
      next.tokens.length + (ts.length + 1) := by
    rw [h.remaining, List.length_append]
    omega
  rw [← hlength]
  rfl

/-- The feed of a text with closing brackets alone behind its first line. -/
theorem Feed.holds_ofText_brackets {first : String} (h : '\n' ∉ first.toList)
    (hfault : (ofText first).fault = none) (n : Nat) :
    ∃ next : NextLine, next.fault = none ∧ Brackets n next.later ∧
      (ofText (first ++ "\n" ++ String.ofList (List.replicate n ')'))).Holds
        ((ofText first).remaining ++ next.tokens) next.fault := by
  obtain ⟨next, s, hrest, hlater, hnext, hholds⟩ :=
    holds_ofText_append h hfault (String.ofList (List.replicate n ')'))
  rw [String.toList_ofList] at hrest
  obtain ⟨hbrackets, hnone⟩ := Scanner.iterate_brackets n hrest
  exact ⟨next, hnext.trans hnone, hlater ▸ hbrackets, hholds⟩

/-! ## Texts with a fault on the first line -/

/-- Nothing is read of a text with a fault on its first line. -/
theorem line?_eq_none_of_scanFaults {text : String} (h : scanFaults (firstLine text) ≠ []) :
    (parse text).line? = none := by
  have horderly := Feed.orderly_ofText text
  have hno : ∀ {after : Feed} {taken terminator : List Token} {reports : List Diagnostic},
      (Feed.ofText text).Passes after (taken ++ terminator) reports → after.failed = false →
      Reader.Terminated after terminator → False := by
    intro after taken terminator reports passes sound terminated
    have htokens : (Feed.ofText text).remaining = taken ++ (terminator ++ after.remaining) := by
      rw [passes.remaining, List.append_assoc]
    exact Feed.not_endsLine_ofText h htokens (passes.endsLine_of_terminated sound terminated)
  cases hline : (parse text).line? with
  | none => rfl
  | some l =>
    obtain ⟨after, -, -, hcomes⟩ := Parse.lineComes_of_line hline
    cases hcomes with
    | command passes sound terminated => exact (hno passes sound (terminated horderly)).elim
    | expression passes sound terminated => exact (hno passes sound (terminated horderly)).elim

/-- The end of input is not reported of tokens that end with a fault. -/
theorem Feed.Passes.ends_of_fault {feed after : Feed} {taken : List Token}
    {reports : List Diagnostic} (h : feed.Passes after taken reports) (hfault : feed.fault ≠ none) :
    after.ends = feed.ends := by
  have hnone : .parse .endOfInput ∉ reports := by
    obtain ⟨citing, closing, rfl, hcite, hclosing⟩ := h.closing
    intro hmem
    have hmem' := (List.mem_append.1 hmem).resolve_left (hcite.notMem rfl)
    cases hclosing with
    | «open» => cases hmem'
    | ended times before => exact hfault before
    | faulted => simp at hmem'
  unfold Feed.ends
  rw [h.diagnostics, List.count_append, List.count_eq_zero_of_not_mem hnone, Nat.add_zero]

theorem ends_eq_zero_of_fault {text : String} (hfault : (Feed.ofText text).fault ≠ none) :
    (parse text).ends = 0 := by
  have hlength := Nat.lt_succ_self (Feed.ofText text).remaining.length
  rw [parse_eq]
  by_cases hlone : (Feed.ofText text).LoneDelete
  · obtain ⟨f, refusal, after, -, hread, hdiagnostics⟩ :=
      Reader.line_of_loneDelete Parse.room hlone hlength
    have hafter : after.diagnostics = [.scan f] := hdiagnostics
    rw [hread, Reader.ends_ofResult_error]
    unfold Feed.ends
    rw [hafter]
    rfl
  · have hcomes := Reader.line_account Parse.room hlength hlone
    generalize Reader.line ((Feed.ofText text).remaining.length + 1) Parse.room
      (Feed.ofText text) = result at hcomes
    cases hcomes with
    | command passes => exact passes.ends_of_fault hfault
    | expression passes => exact passes.ends_of_fault hfault
    | @refused after taken reports passes =>
      rw [Reader.ends_ofResult_error]
      exact passes.ends_of_fault hfault
    | @tooDeep after taken reports passes =>
      rw [Reader.ends_ofResult_error]
      exact passes.ends_of_fault hfault

/-! ## The lines behind the first -/

/-- **When the lines behind the first one do not matter.**  What stands behind the first line
changes nothing if and only if reading the first line alone reports no end of input, or
reports it once and comes to no line. -/
theorem parse_ignores_later_lines_iff (first : String) (h : '\n' ∉ first.toList) :
    (∀ later : String, (parse (first ++ "\n" ++ later)).line? = (parse first).line?) ↔
      (parse first).ends = 0 ∨ (parse first).ends = 1 ∧ (parse first).line? = none := by
  by_cases hfault : (Feed.ofText first).fault = none
  · have hholds : (Feed.ofText first).Holds (Feed.ofText first).remaining none :=
      ⟨rfl, hfault, rfl⟩
    have hfares := Reader.line_fares ((Feed.ofText first).remaining.length + 1) Parse.room hholds
      (Nat.lt_succ_self _)
    rw [← parse_eq] at hfares
    have hcontinues : ∀ {text : String} {next : NextLine}, (Feed.ofText text).Holds
        ((Feed.ofText first).remaining ++ next.tokens) next.fault →
        (Feed.ofText text).Continues (Feed.ofText first).remaining next
          (next.tokens.length + ((Feed.ofText first).remaining.length + 1)) := by
      intro text next hnext
      refine ⟨hnext, ?_⟩
      rw [List.length_append]
      omega
    cases hfares with
    | alike ends same =>
      refine iff_of_true (fun later => ?_) (Or.inl ends)
      obtain ⟨next, s, -, -, -, hnext⟩ := Feed.holds_ofText_append h hfault later
      rw [parse_of_holds hnext]
      exact same _ next _ (hcontinues hnext)
    | cut ends refused same =>
      refine iff_of_true (fun later => ?_) (Or.inr ⟨ends, refused⟩)
      obtain ⟨next, s, -, -, -, hnext⟩ := Feed.holds_ofText_append h hfault later
      rw [parse_of_holds hnext, refused]
      exact same _ next _ (hcontinues hnext)
    | completed ends refused count completes =>
      refine iff_of_false (fun hsame => ?_) ?_
      · have hbrackets : ∀ n, (parse first).line? = none ↔ n ≠ 0 := by
          intro n
          obtain ⟨next, hnone, hlater, hnext⟩ := Feed.holds_ofText_brackets h hfault (n + count)
          rw [← hsame, parse_of_holds hnext]
          exact completes _ next _ (hcontinues hnext) hnone n hlater
        exact absurd ((hbrackets 1).2 (by simp)) (by simp [hbrackets 0])
      · rintro (hnone | ⟨hone, hnone⟩)
        · omega
        · have htwice := refused hnone
          omega
  · have hscan : scanFaults first ≠ [] := scanFaults_ne_nil hfault
    refine iff_of_true (fun later => ?_) (Or.inl (ends_eq_zero_of_fault hfault))
    have hself := firstLine_eq_self h
    have hnone : (parse first).line? = none := line?_eq_none_of_scanFaults (by rwa [hself])
    rw [hnone, line?_eq_none_of_scanFaults]
    rwa [firstLine_append_newline, hself]

/-- A missing right operand is looked for behind the newline. -/
theorem parse_looks_behind_missing_operand :
    '\n' ∉ "1 +".toList ∧ (parse "1 +").ends = 1 ∧ (parse "1 +").line? ≠ none ∧
      ∃ later : String, (parse ("1 +" ++ "\n" ++ later)).line? ≠ (parse "1 +").line? := by
  have hclear : '\n' ∉ "1 +".toList := by decide
  have hends : (parse "1 +").ends = 1 := by decide +kernel
  have hline : (parse "1 +").line? ≠ none := by
    have hsome : (parse "1 +").line?.isSome = true := by decide +kernel
    exact Option.isSome_iff_ne_none.1 hsome
  refine ⟨hclear, hends, hline, not_forall.1 fun hsame => ?_⟩
  rcases (parse_ignores_later_lines_iff "1 +" hclear).1 hsame with hnone | ⟨-, hnone⟩
  · rw [hends] at hnone
    cases hnone
  · exact hline hnone

end LineCalculator
