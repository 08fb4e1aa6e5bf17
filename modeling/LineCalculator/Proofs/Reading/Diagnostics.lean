import LineCalculator.Proofs.Reading.LineAccount
import LineCalculator.Proofs.Reading.FirstLine
import LineCalculator.Proofs.Scanning.Order

/-!
# The reports of a line

A text that is not read as a line has a report that says why, and the reports of a text
come in an order that does not depend on what the text is (`ReportsOf`):

1. first those that cite a token, in the order in which the tokens stand in the text and
   no token twice;
2. then at most one of two kinds: that the input ended, once or more often, or the first
   fault of the text, once;
3. and last, if there was no room for the nesting, that there was none.

So nothing is cited behind a report of the end, and the end of input and a fault are
never reported both.  All of this is read off the account of the line.
-/

namespace LineCalculator

/-- Some diagnostics are those of a text that is read as a line, or as none. -/
structure ReportsOf (text : String) (line? : Option Line) (reports : List Diagnostic) : Prop where
  /-- A text that is no line has a report. -/
  complete : line? = none → reports ≠ []
  /-- The reports that cite a token come first, those of the end of the tokens behind them,
  and that there was no room comes last. -/
  ordered : ∃ (citing closing deep : List Diagnostic) (cited : List Token),
    reports = citing ++ closing ++ deep ∧
    -- different tokens from before the first fault are cited, in their order
    citing.map (·.cited?) = cited.map some ∧ cited.Sublist (soundTokens text) ∧ cited.Nodup ∧
    -- the end of input is reported, or the first fault, and then there is no line
    (closing = [] ∨ (∃ n, closing = List.replicate (n + 1) (.parse .endOfInput)) ∨
      ∃ f, closing = [.scan f] ∧ (scanFaults text).head? = some f ∧ line? = none) ∧
    (deep = [] ∨ deep = [.parse .tooDeep] ∧ line? = none)

/-- An account that begins with a text has the reports of that text. -/
theorem Feed.Passes.reportsOf {text : String} {after : Feed} {taken : List Token}
    {reports deep : List Diagnostic} {line? : Option Line}
    (h : (Feed.ofText text).Passes after taken reports)
    (hfailed : after.failed = true → line? = none)
    (hdeep : deep = [] ∨ deep = [.parse .tooDeep] ∧ line? = none)
    (hcomplete : line? = none → reports ++ deep ≠ []) :
    ReportsOf text line? (after.diagnostics ++ deep) := by
  have hdiagnostics : after.diagnostics = reports := h.diagnostics
  obtain ⟨citing, closing, rfl, ⟨cited, hcited, hsub⟩, hclosing⟩ := h.closing
  have hsound : cited.Sublist (soundTokens text) := by
    rw [soundTokens_eq, ← Feed.remaining_ofText, h.remaining]
    exact hsub.trans (List.sublist_append_left taken after.remaining)
  have hnodup : cited.Nodup := hsound.nodup (soundTokens_eq text ▸ Scanner.nodup_iterate _)
  rw [hdiagnostics]
  refine ⟨hcomplete, citing, closing, deep, cited, rfl, hcited, hsound, hnodup, ?_, hdeep⟩
  cases hclosing with
  | «open» fault failed => exact Or.inl rfl
  | ended times before sound fault failed => exact Or.inr (Or.inl ⟨times, rfl⟩)
  | faulted f before fault failed =>
    exact Or.inr (Or.inr ⟨f, rfl, (head?_scanFaults text).trans before, hfailed failed⟩)

/-- A fault of a text may be all that is reported of it but for want of room. -/
theorem ReportsOf.fault {text : String} {f : ScanFault} {deep : List Diagnostic}
    (hf : (scanFaults text).head? = some f) (hdeep : deep = [] ∨ deep = [.parse .tooDeep]) :
    ReportsOf text none (.scan f :: deep) where
  complete _ := by simp
  ordered := ⟨[], [.scan f], deep, [], rfl, rfl, List.nil_sublist _, .nil,
    Or.inr (Or.inr ⟨f, rfl, hf, rfl⟩), hdeep.imp id fun h => ⟨h, rfl⟩⟩

/-- What has come of a line has the reports of the text it is on. -/
theorem Reader.LineComes.reportsOf {text : String} {result : EStateM.Result Refusal Feed Line}
    (h : LineComes (Feed.ofText text) result) :
    ReportsOf text (Parse.ofResult result).line? (Parse.ofResult result).diagnostics := by
  have hopen : ∀ {l : Line} {after : Feed} {taken : List Token} {reports : List Diagnostic},
      (Feed.ofText text).Passes after taken reports → after.failed = false →
      ReportsOf text (some l) after.diagnostics := by
    intro l after taken reports passes sound
    rw [← List.append_nil after.diagnostics]
    exact passes.reportsOf (fun hfailed => absurd hfailed (by simp [sound])) (Or.inl rfl) (by simp)
  cases h with
  | command passes sound => exact hopen passes sound
  | expression passes sound => exact hopen passes sound
  | @refused after taken reports passes reported =>
    show ReportsOf text none after.diagnostics
    rw [← List.append_nil after.diagnostics]
    refine passes.reportsOf (fun _ => rfl) (Or.inl rfl) fun _ => ?_
    rw [List.append_nil]
    -- a feed that has failed since the text began has reported the fault
    obtain ⟨citing, closing, rfl, -, hclosing⟩ := passes.closing
    cases hclosing with
    | «open» fault failed => exact reported failed
    | ended times => simp
    | faulted f => simp
  | @tooDeep after taken reports passes =>
    rw [Parse.diagnostics_ofResult_tooDeep]
    exact passes.reportsOf (fun _ => rfl) (Or.inr ⟨rfl, rfl⟩) (by simp)

/-- **The reports of a text are complete and ordered.** -/
theorem reportsOf_parse (text : String) :
    ReportsOf text (parse text).line? (parse text).diagnostics := by
  have hlength := Nat.lt_succ_self (Feed.ofText text).remaining.length
  rw [parse_eq]
  by_cases hlone : (Feed.ofText text).LoneDelete
  · obtain ⟨f, refusal, after, hf, hread, hdiagnostics⟩ :=
      Reader.line_of_loneDelete Parse.room hlone hlength
    have hfirst : (scanFaults text).head? = some f := (head?_scanFaults text).trans hf
    have hafter : after.diagnostics = [.scan f] := hdiagnostics
    rw [hread]
    cases refusal with
    | unparsable =>
      show ReportsOf text none after.diagnostics
      rw [hafter]
      exact .fault hfirst (Or.inl rfl)
    | tooDeep =>
      rw [Parse.diagnostics_ofResult_tooDeep, hafter]
      exact .fault hfirst (Or.inr rfl)
  · exact (Reader.line_account Parse.room hlength hlone).reportsOf

end LineCalculator
