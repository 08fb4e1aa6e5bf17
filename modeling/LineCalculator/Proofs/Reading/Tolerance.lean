import LineCalculator.Proofs.Reading.Language
import LineCalculator.Proofs.Reading.LineAccount
import LineCalculator.Proofs.Scanning.Order

/-!
# What tolerated errors do to a line

A text may be read as a line although something has been reported of it.  Then some of
its tokens have been dropped, in segments that begin with an operator and end with a
token that a report cites or with the text, and those that remain are the line by the
grammar of lines without reports (`parse_drops_only_segments`).  Nothing is put in, put
elsewhere or grouped otherwise.

One rule of that grammar does not apply after a drop: a word that ends a session says so
only where it stands alone in the text, not where it has been left alone.

The tokens that have been consumed are those that were drawn, which is all that can be
seen of them from outside (`Parse.drawn`).
-/

namespace LineCalculator

open Grammar

/-- The tokens drawn in a reading, each when it was drawn for the first time. -/
def Parse.drawn (p : Parse) : List Token := p.readings.toList.filterMap (·.token?)

/-- Where a line has ended, all that has been drawn is the line with its end. -/
theorem Feed.Passes.drawn_of_terminated {text : String} {after : Feed}
    {taken terminator : List Token} {reports : List Diagnostic}
    (h : (Feed.ofText text).Passes after (taken ++ terminator) reports)
    (hends : Reader.Terminated after terminator) : after.drawn = taken ++ terminator := by
  have hsource : after.drawn ++ after.tokens.coming = (Feed.ofText text).remaining := h.source
  have hreturned : after.tokens.returned = [] := by
    cases hends with
    | text nothing fault => exact (List.append_eq_nil_iff.1 nothing).1
    | newline kind returned => exact returned
  have hcoming : after.remaining = after.tokens.coming := by
    show after.tokens.returned ++ after.tokens.coming = after.tokens.coming
    rw [hreturned, List.nil_append]
  rw [h.remaining, hcoming] at hsource
  exact List.append_cancel_right hsource

/-- The end of a line that has been read is one of the feed as it was before. -/
theorem Feed.Passes.endsLine_of_terminated {feed after : Feed} {taken terminator : List Token}
    {reports : List Diagnostic} (h : feed.Passes after (taken ++ terminator) reports)
    (hsound : after.failed = false) (hends : Reader.Terminated after terminator) :
    Feed.EndsLine (terminator ++ after.remaining) feed.fault := by
  cases hends with
  | text nothing fault => exact Or.inl ⟨nothing, (h.fault_of_sound hsound).symm.trans fault⟩
  | @newline t kind returned => exact Or.inr ⟨t, after.remaining, rfl, kind⟩

/-- Tokens that are taken up to the end of a text are all its tokens, if it has no fault. -/
theorem Feed.Passes.eq_tokenize {text : String} {after : Feed} {taken : List Token}
    {reports : List Diagnostic} (h : (Feed.ofText text).Passes after taken reports)
    (hsound : after.failed = false) (hnothing : after.remaining = [])
    (hfault : after.fault = none) :
    scanFaults text = [] ∧ taken = tokenize text := by
  obtain ⟨hfaults, htokens⟩ := tokenize_of_iterate ((h.fault_of_sound hsound).symm.trans hfault)
  have htaken := h.remaining
  rw [hnothing, List.append_nil] at htaken
  exact ⟨hfaults, (htokens.trans htaken).symm⟩

/-- What has been consumed before the end of a line that has been read. -/
structure Consumed (text : String) (reports : List Diagnostic) (drawn consumed : List Token)
    (terminator : List Token) : Prop where
  drawn : drawn = consumed ++ terminator
  begins : consumed ++ terminator <+: soundTokens text
  /-- A line ends with its text, or with a newline, and then the end of input has not been
  reported. -/
  ends : (terminator = [] ∧ scanFaults text = [] ∧ consumed = tokenize text) ∨
    .parse .endOfInput ∉ reports ∧ ∃ t, terminator = [t] ∧ t.kind = .newline

theorem Feed.Passes.consumed {text : String} {after : Feed} {taken terminator : List Token}
    {reports : List Diagnostic} (h : (Feed.ofText text).Passes after (taken ++ terminator) reports)
    (hsound : after.failed = false) (hends : Reader.Terminated after terminator)
    (hended : .parse .endOfInput ∈ reports → terminator = []) :
    Consumed text after.diagnostics after.drawn taken terminator where
  drawn := h.drawn_of_terminated hends
  begins := by
    rw [soundTokens_eq, ← Feed.remaining_ofText, h.remaining]
    exact List.prefix_append _ _
  ends := by
    have hdiagnostics : after.diagnostics = reports := h.diagnostics
    rw [hdiagnostics]
    cases hends with
    | text nothing fault =>
      rw [List.append_nil] at h
      exact Or.inl ⟨rfl, h.eq_tokenize hsound nothing fault⟩
    | @newline t kind returned =>
      exact Or.inr ⟨fun hend => absurd (hended hend) (by simp), t, rfl, kind⟩

/-- An expression of which nothing has been dropped is a line of the grammar. -/
theorem wholeLine_of_silent {text : String} {e : Expr} {after : Feed}
    {taken terminator : List Token}
    (hread : Reader.line ((Feed.ofText text).remaining.length + 1) Parse.room (Feed.ofText text) =
      .ok (.expression e) after)
    (h : (Feed.ofText text).Passes after (taken ++ terminator) []) (hsound : after.failed = false)
    (hends : Reader.Terminated after terminator) (he : Expression taken e) :
    WholeLine taken (.expression e) := by
  obtain ⟨ts, rest, htokens, hline, hrest⟩ := Reader.line_sound hread h.diagnostics
  have hends' := h.endsLine_of_terminated hsound hends
  have hts : ts = taken := hrest.eq_of_append_eq hends' hline.newline_notMem he.newline_notMem <| by
    rw [← htokens, h.remaining, List.append_assoc]
  exact hts ▸ hline

/-- What is read as a line has been accounted for as one. -/
theorem Parse.lineComes_of_line {text : String} {l : Line} (h : (parse text).line? = some l) :
    ∃ after, Reader.line ((Feed.ofText text).remaining.length + 1) room (Feed.ofText text) =
        .ok l after ∧
      (parse text).readings = after.readings ∧
      Reader.LineComes (Feed.ofText text) (.ok l after) := by
  have hlength := Nat.lt_succ_self (Feed.ofText text).remaining.length
  obtain ⟨after, hread⟩ := exists_ok_of_line? h
  have hnot : ¬ (Feed.ofText text).LoneDelete := by
    intro hlone
    obtain ⟨f, refusal, refused, -, hrefused, -⟩ := Reader.line_of_loneDelete room hlone hlength
    rw [hread] at hrefused
    cases hrefused
  refine ⟨after, hread, ?_, hread ▸ Reader.line_account room hlength hnot⟩
  rw [parse_eq, hread]
  rfl

/-- A text that holds nothing but blanks has no tokens. -/
theorem Feed.remaining_of_blank {text : String} (h : ∀ c ∈ text.toList, Head.isSkipped c = true) :
    (Feed.ofText text).remaining = [] := by
  have hdrop : (Scanner.ofText text).rest.dropWhile Head.isSkipped = [] :=
    List.dropWhile_eq_nil_iff.2 h
  rw [Feed.remaining_ofText, Scanner.iterate_of_finished (Scanner.scan_of_nil hdrop)]

/-- A text that holds nothing but blanks is no line, since dropping tokens makes none. -/
theorem Parse.line?_eq_none_of_blank {text : String}
    (h : ∀ c ∈ text.toList, Head.isSkipped c = true) : (parse text).line? = none := by
  cases hline : (parse text).line? with
  | none => rfl
  | some l =>
    obtain ⟨after, -, -, hcomes⟩ := Parse.lineComes_of_line hline
    have hnothing := Feed.remaining_of_blank h
    cases hcomes with
    | @command l after taken terminator passes sound terminated derived =>
      rw [passes.remaining, List.append_assoc, List.append_eq_nil_iff] at hnothing
      obtain ⟨rfl, -⟩ := hnothing
      cases derived with
      | expression hexpression halone =>
        obtain ⟨t, rest, hcons, -⟩ := hexpression.begins
        cases hcons
    | @expression e after taken kept terminator reports passes sound terminated ended thins
        derived =>
      rw [passes.remaining, List.append_assoc, List.append_eq_nil_iff] at hnothing
      obtain ⟨rfl, -⟩ := hnothing
      obtain ⟨segments, hthinned, -⟩ := thins
      obtain rfl : kept = [] := List.sublist_nil.1 hthinned.sublist
      obtain ⟨t, rest, hcons, -⟩ := derived.begins
      cases hcons

/-- **Tolerated errors only drop text.**  Of every text that is read as a line, the tokens
consumed before the end of the line are the first of the text, and they are the line by
the grammar but for segments that were dropped.  Each of these begins with an operator and
ends with a token that a report cites, or with the text; and there are some exactly if
something has been reported. -/
theorem parse_drops_only_segments (text : String) (l : Line) (h : (parse text).line? = some l) :
    ∃ consumed terminator kept segments,
      Consumed text (parse text).diagnostics (parse text).drawn consumed terminator ∧
      Thinned consumed kept segments ∧
      (segments = [] → WholeLine kept l) ∧
      (segments ≠ [] → ∃ e, l = .expression e ∧ Expression kept e) ∧
      (∀ segment ∈ segments, Dropped (parse text).diagnostics consumed segment) ∧
      (segments = [] ↔ (parse text).diagnostics = []) := by
  obtain ⟨after, hread, hreadings, hcomes⟩ := Parse.lineComes_of_line h
  have hparse : (parse text).diagnostics = after.diagnostics ∧
      (parse text).drawn = after.drawn := by
    unfold Parse.diagnostics Parse.drawn
    rw [hreadings]
    exact ⟨rfl, rfl⟩
  have horderly := Feed.orderly_ofText text
  rw [hparse.1, hparse.2]
  cases hcomes with
  | @command l after taken terminator passes sound terminated derived =>
    have hnone : after.diagnostics = [] := passes.diagnostics
    refine ⟨taken, terminator, taken, [], passes.consumed sound (terminated horderly) (by simp),
      .keepAll taken, fun _ => derived, by simp, by simp, ?_⟩
    exact ⟨fun _ => hnone, fun _ => rfl⟩
  | @expression e after taken kept terminator reports passes sound terminated ended thins derived =>
    obtain ⟨segments, hthinned, hdropped, hnone⟩ := thins
    have hdiagnostics : after.diagnostics = reports := passes.diagnostics
    refine ⟨taken, terminator, kept, segments, passes.consumed sound (terminated horderly) ended,
      hthinned, fun hnil => ?_, fun _ => ⟨e, rfl, derived⟩, ?_, ?_⟩
    · obtain rfl := hnone.1 hnil
      obtain rfl := hthinned.eq_of_nil hnil
      exact wholeLine_of_silent hread passes sound (terminated horderly) derived
    · rw [hdiagnostics]
      exact hdropped
    · rw [hdiagnostics]
      exact hnone

/-- A word that ends a session is left as an expression when the operator behind it has no
operand. -/
theorem parse_drops_behind_exit :
    ∃ e consumed terminator kept segments, (parse "exit + )").line? = some (.expression e) ∧
      Consumed "exit + )" (parse "exit + )").diagnostics (parse "exit + )").drawn consumed
        terminator ∧
      Thinned consumed kept segments ∧ segments ≠ [] ∧ Expression kept e := by
  have hread : (parse "exit + )").line?.isSome = true := by decide +kernel
  have hreported : (parse "exit + )").diagnostics ≠ [] := by decide +kernel
  obtain ⟨l, hline⟩ := Option.isSome_iff_exists.1 hread
  obtain ⟨consumed, terminator, kept, segments, hconsumed, hthinned, -, hderived, -, hnone⟩ :=
    parse_drops_only_segments "exit + )" l hline
  have hsome : segments ≠ [] := fun hnil => hreported (hnone.1 hnil)
  obtain ⟨e, rfl, hkept⟩ := hderived hsome
  exact ⟨e, consumed, terminator, kept, segments, hline, hconsumed, hthinned, hsome, hkept⟩

end LineCalculator
