import LineCalculator.Proofs.Reading.Completeness
import LineCalculator.Proofs.Reading.Lenience

/-!
# The account of a line

What a line is read from is accounted for like the phrases in it (`line_account`): the
tokens of a command or of an expression that may have lost segments, and the newline or
the end of the text that closes the line.

## A word handed back at a fault

There is one place where a token is handed back after a fault has been met.  When
`delete` is the last token before a fault, asking for the name behind it meets the
fault, and then `delete` is handed back to be read as a name.  Reading it reports
nothing more and the line is refused in the end (`line_of_loneDelete`), but this is the
only time that something is taken after a report of the end of the tokens, and so it
has no account.
-/

namespace LineCalculator

open Grammar

/-- The tokens are a word that forgets a variable and then a fault. -/
def Feed.LoneDelete (feed : Feed) : Prop :=
  ∃ t, feed.remaining = [t] ∧ Reader.isWord Reader.deleteWords t = true ∧ feed.fault ≠ none

namespace Reader

/-! ## Commands -/

/-- What has come of looking for a command: one that the tokens taken say, or nothing. -/
inductive Seeks (feed : Feed) : EStateM.Result Refusal Feed (Option Line) → Prop
  | found {l : Line} {mid : Feed} {taken : List Token} {reports : List Diagnostic}
      (passes : feed.Passes mid taken reports) (silent : mid.failed = false → reports = [])
      (derived : WholeLine taken l) : Seeks feed (.ok (some l) mid)
  | nothing {mid : Feed} {reports : List Diagnostic} (passes : feed.Passes mid [] reports)
      (silent : mid.failed = false → reports = []) : Seeks feed (.ok none mid)

theorem Seeks.handBack {feed mid : Feed} {t : Token} (h : feed.Passes (mid.withBack t) [] []) :
    Seeks feed ((Reader.handBack t >>= fun _ => pure none) mid) :=
  .nothing h fun _ => rfl

theorem exitCommand_seeks (feed : Feed) : Seeks feed (exitCommand feed) := by
  unfold exitCommand
  rcases feed.draw_cases with ⟨t, mid, hdraw, hdrew⟩ | ⟨mid, hdraw⟩
  · rw [bind_of_ok hdraw]
    dsimp only
    split
    case isTrue ht =>
      rcases mid.draw_cases with ⟨u, after, hdraw', hdrew'⟩ | ⟨after, hdraw'⟩
      · rw [bind_of_ok hdraw']
        have hpasses := hdrew.passes.trans hdrew'.passes_withBack
        dsimp only
        rw [bind_of_ok (after.handBack_withBack u)]
        split
        case isTrue => exact .found hpasses (fun _ => rfl) (.exit ht)
        case isFalse => exact .handBack (hpasses.withBack (by simp [isWord_kind ht]))
      · rw [bind_of_ok hdraw']
        obtain ⟨-, reports, hpasses, -, -, hquiet⟩ := Feed.passes_of_draw_none hdraw'
        exact .found (hdrew.passes.trans hpasses) (fun hsound => (hquiet hsound).2) (.exit ht)
    case isFalse => exact .handBack hdrew.passes_withBack
  · rw [bind_of_ok hdraw]
    obtain ⟨-, reports, hpasses, -, -, hquiet⟩ := Feed.passes_of_draw_none hdraw
    exact .nothing hpasses fun hsound => (hquiet hsound).2

theorem deleteCommand_seeks {feed : Feed} (hnot : ¬ feed.LoneDelete) :
    Seeks feed (deleteCommand feed) := by
  unfold deleteCommand
  rcases feed.draw_cases with ⟨t, mid, hdraw, hdrew⟩ | ⟨mid, hdraw⟩
  · rw [bind_of_ok hdraw]
    dsimp only
    split
    case isTrue ht =>
      rcases mid.draw_cases with ⟨u, after, hdraw', hdrew'⟩ | ⟨after, hdraw'⟩
      · rw [bind_of_ok hdraw']
        dsimp only
        split
        case isTrue hu =>
          exact .found (hdrew.passes.trans hdrew'.passes) (fun _ => rfl) (.delete ht hu)
        case isFalse =>
          have hpasses := hdrew.passes.trans hdrew'.passes_withBack
          rw [bind_of_ok (after.handBack_withBack u)]
          exact .handBack (hpasses.withBack (by simp [isWord_kind ht]))
      · -- there is no fault to meet here, so that nothing has happened
        obtain ⟨hnil, -⟩ := Feed.passes_of_draw_none hdraw'
        have hfault : mid.fault = none := by
          by_contra hfault
          refine hnot ⟨t, ?_, ht, hdrew.quietly.fault ▸ hfault⟩
          rw [hdrew.remaining, hnil]
        obtain rfl : after = mid := by
          rw [draw_end hnil hfault] at hdraw'
          cases hdraw'
          rfl
        rw [bind_of_ok hdraw']
        exact .handBack hdrew.passes_withBack
    case isFalse => exact .handBack hdrew.passes_withBack
  · rw [bind_of_ok hdraw]
    obtain ⟨-, reports, hpasses, -, -, hquiet⟩ := Feed.passes_of_draw_none hdraw
    exact .nothing hpasses fun hsound => (hquiet hsound).2

theorem command_seeks {feed : Feed} (hnot : ¬ feed.LoneDelete) : Seeks feed (command feed) := by
  have hexit := exitCommand_seeks feed
  unfold command
  generalize hread : exitCommand feed = result at hexit
  cases hexit with
  | found passes silent derived =>
    rw [bind_of_ok hread]
    exact .found passes silent derived
  | @nothing mid reports passes silent =>
    rw [bind_of_ok hread]
    have hnot' : ¬ mid.LoneDelete := by
      rintro ⟨t, ht, hword, hfault⟩
      obtain ⟨citing, closing, -, -, hclosing⟩ := passes.closing
      cases hclosing with
      | «open» fault failed =>
        exact hnot ⟨t, passes.remaining.trans ht, hword, fault ▸ hfault⟩
      | ended times before sound fault => exact hfault fault
      | faulted f before fault => exact hfault fault
    have hdelete := deleteCommand_seeks hnot'
    show Seeks feed (deleteCommand mid)
    -- what has not failed after the second reader had not failed after the first
    generalize deleteCommand mid = result at hdelete
    cases hdelete with
    | found passes' silent' derived =>
      refine .found (passes.trans passes') (fun hsound => ?_) derived
      rw [silent (passes'.sound hsound), silent' hsound, List.append_nil]
    | nothing passes' silent' =>
      refine .nothing (passes.trans passes') fun hsound => ?_
      rw [silent (passes'.sound hsound), silent' hsound, List.append_nil]

/-! ## What a line says -/

/-- What is read of a line before its end is a command, and then in silence, or an
expression but for what was dropped. -/
theorem content_account {supply : Nat} (room : Nat) {feed : Feed}
    (hlength : feed.remaining.length < supply) (hnot : ¬ feed.LoneDelete) :
    (∃ l mid taken reports, content supply room feed = .ok l mid ∧
        feed.Passes mid taken reports ∧ (mid.failed = false → reports = []) ∧
        WholeLine taken l) ∨
      Comes (fun ks l => ∃ e, l = .expression e ∧ Expression ks e) feed
        (content supply room feed) := by
  have hcommand := command_seeks hnot
  unfold content
  generalize hread : command feed = result at hcommand
  cases hcommand with
  | @found l mid taken reports passes silent derived =>
    rw [bind_of_ok hread]
    exact Or.inl ⟨l, mid, taken, reports, rfl, passes, silent, derived⟩
  | @nothing mid reports passes silent =>
    rw [bind_of_ok hread]
    right
    have hexpression : Lenient supply (do
        let e ← phrase supply room .expression
        pure (Line.expression e)) fun ks l => ∃ e, l = .expression e ∧ Expression ks e := by
      refine (phrase_lenient supply room .expression).bind fun e => .pure ?_
      intro ks he
      exact ⟨e, rfl, by rwa [List.append_nil]⟩
    refine (hexpression mid (Nat.lt_of_le_of_lt passes.length_le hlength)).after
      (R := fun ks => ks = []) passes (fun hsound => ?_) fun ks ks' l hks hks' => ?_
    · rw [silent hsound]
      exact ⟨[], .nil, rfl⟩
    · subst hks
      exact hks'

/-! ## The end of a line -/

/-- What ends a line is a newline, behind which nothing had been drawn, or the end of a
text without a fault. -/
inductive Terminated (after : Feed) : List Token → Prop
  | text (nothing : after.remaining = []) (fault : after.fault = none) : Terminated after []
  | newline {t : Token} (kind : t.kind = .newline) (returned : after.tokens.returned = []) :
      Terminated after [t]

/-- What has come of looking for the end of a line: it has been found, or something else
has been reported. -/
inductive Ends (l : Line) (feed : Feed) : EStateM.Result Refusal Feed Line → Prop
  | found {after : Feed} {terminator : List Token} (passes : feed.Passes after terminator [])
      (sound : after.failed = false)
      (terminated : feed.Orderly → Terminated after terminator) : Ends l feed (.ok l after)
  | refused {after : Feed} {taken : List Token} {reports : List Diagnostic}
      (passes : feed.Passes after taken reports)
      (reported : after.failed = false → reports ≠ []) :
      Ends l feed (.error .unparsable after)

theorem soundSource_of_sound {feed : Feed} (h : feed.failed = false) :
    soundSource feed = .ok () feed := if_neg (by simp [h])

theorem soundSource_of_failed {feed : Feed} (h : feed.failed = true) :
    soundSource feed = .error .unparsable feed := if_pos h

theorem ending_ends (l : Line) (feed : Feed) : Ends l feed (ending l feed) := by
  unfold ending endOfLine
  rw [bind_assoc]
  rcases feed.draw_cases with ⟨t, mid, hdraw, hdrew⟩ | ⟨mid, hdraw⟩
  · rw [bind_of_ok hdraw]
    dsimp only
    split
    case isTrue ht =>
      rw [pure_bind]
      cases hfailed : mid.failed with
      | false =>
        rw [bind_of_ok (soundSource_of_sound hfailed)]
        exact .found hdrew.passes hfailed fun horderly =>
          .newline ht (hdrew.returned_of_newline horderly ht)
      | true =>
        rw [bind_of_error (soundSource_of_failed hfailed)]
        exact .refused hdrew.passes fun hsound => absurd hfailed (by simp [hsound])
    case isFalse =>
      have hrefuse : Reader.refuse (.unexpectedToken t) mid =
          .error (α := Unit) .unparsable (mid.note (.reported (.parse (.unexpectedToken t)))) :=
        rfl
      rw [bind_of_error hrefuse]
      exact .refused (hdrew.passes_note rfl) fun _ => by simp
  · rw [bind_of_ok hdraw]
    obtain ⟨-, reports, hpasses, hnil, hfault, hquiet⟩ := Feed.passes_of_draw_none hdraw
    dsimp only
    rw [pure_bind]
    cases hfailed : mid.failed with
    | false =>
      rw [bind_of_ok (soundSource_of_sound hfailed)]
      rw [(hquiet hfailed).2] at hpasses
      exact .found hpasses hfailed fun _ => .text hnil hfault
    | true =>
      rw [bind_of_error (soundSource_of_failed hfailed)]
      exact .refused hpasses fun hsound => absurd hfailed (by simp [hsound])

/-! ## Lines -/

/-- What has come of reading a line: a command, and nothing was reported; an expression,
but for what was dropped; or a refusal. -/
inductive LineComes (feed : Feed) : EStateM.Result Refusal Feed Line → Prop
  | command {l : Line} {after : Feed} {taken terminator : List Token}
      (passes : feed.Passes after (taken ++ terminator) []) (sound : after.failed = false)
      (terminated : feed.Orderly → Terminated after terminator)
      (derived : WholeLine taken l) : LineComes feed (.ok l after)
  | expression {e : Expr} {after : Feed} {taken kept terminator : List Token}
      {reports : List Diagnostic} (passes : feed.Passes after (taken ++ terminator) reports)
      (sound : after.failed = false) (terminated : feed.Orderly → Terminated after terminator)
      (ended : .parse .endOfInput ∈ reports → terminator = [])
      (thins : Thins reports taken kept) (derived : Expression kept e) :
      LineComes feed (.ok (.expression e) after)
  | refused {after : Feed} {taken : List Token} {reports : List Diagnostic}
      (passes : feed.Passes after taken reports)
      (reported : after.failed = false → reports ≠ []) :
      LineComes feed (.error .unparsable after)
  | tooDeep {after : Feed} {taken : List Token} {reports : List Diagnostic}
      (passes : feed.Passes after taken reports) : LineComes feed (.error .tooDeep after)

/-- A line that ends where something else stands is refused with a report. -/
theorem LineComes.of_refused {feed mid after : Feed} {taken taken' : List Token}
    {reports reports' : List Diagnostic} (passes : feed.Passes mid taken reports)
    (passes' : mid.Passes after taken' reports') (reported : after.failed = false → reports' ≠ []) :
    LineComes feed (.error .unparsable after) :=
  .refused (passes.trans passes') fun hsound hnil =>
    reported hsound (List.append_eq_nil_iff.1 hnil).2

/-- **What is taken and reported for a line is accounted for.** -/
theorem line_account {supply : Nat} (room : Nat) {feed : Feed}
    (hlength : feed.remaining.length < supply) (hnot : ¬ feed.LoneDelete) :
    LineComes feed (line supply room feed) := by
  rw [line_eq]
  rcases content_account room hlength hnot with
    ⟨l, mid, taken, reports, hread, passes, silent, derived⟩ | hcontent
  · rw [bind_of_ok hread]
    have hends := ending_ends l mid
    generalize ending l mid = result at hends
    cases hends with
    | found passes' sound terminated =>
      obtain rfl := silent (passes'.sound sound)
      exact .command (passes.trans passes') sound (fun h => terminated (passes.orderly h)) derived
    | refused passes' reported => exact .of_refused passes passes' reported
  · generalize hread : content supply room feed = result at hcontent
    cases hcontent with
    | @ok l mid taken reports passes kept =>
      rw [bind_of_ok hread]
      have hends := ending_ends l mid
      generalize ending l mid = result at hends
      cases hends with
      | found passes' sound terminated =>
        obtain ⟨kept, hthins, e, rfl, he⟩ := kept (passes'.sound sound)
        have hpasses := passes.trans passes'
        rw [List.append_nil] at hpasses
        exact .expression hpasses sound (fun h => terminated (passes.orderly h))
          (passes.taken_of_endOfInput passes') hthins he
      | refused passes' reported => exact .of_refused passes passes' reported
    | unparsable passes reported =>
      rw [bind_of_error hread]
      exact .refused passes fun hsound => (reported hsound).ne_nil
    | tooDeep passes =>
      rw [bind_of_error hread]
      exact .tooDeep passes

/-! ## The word that is handed back -/

/-- Asking for the name behind a lone `delete` meets the fault, and then the word is
handed back. -/
theorem deleteCommand_of_loneDelete {feed : Feed} {t : Token} {f : ScanFault}
    (hfeed : feed.remaining = [t]) (hword : isWord deleteWords t = true)
    (hf : feed.fault = some f) :
    ∃ after, deleteCommand feed = .ok none after ∧ after.remaining = [t] ∧ after.fault = none ∧
      after.failed = true ∧ after.diagnostics = feed.diagnostics ++ [.scan f] := by
  obtain ⟨mid, hdraw, hquiet, hmid⟩ := draw_cons hfeed
  obtain ⟨after, hdraw', hpasses, hnil, hfault, hfailed⟩ :=
    Feed.draw_of_fault hmid (hquiet.fault.trans hf)
  refine ⟨after.withBack t, ?_, ?_, hfault, hfailed, ?_⟩
  · unfold deleteCommand
    rw [bind_of_ok hdraw]
    simp only [hword, if_true]
    rw [bind_of_ok hdraw']
    dsimp only
    rw [bind_of_ok (after.handBack_withBack t)]
    rfl
  · rw [Feed.remaining_withBack, hnil]
  · rw [← hquiet.diagnostics]
    exact hpasses.diagnostics

/-- Where a fault follows a lone `delete`, the fault is reported and the line is refused,
and nothing else is reported. -/
theorem line_of_loneDelete {supply : Nat} (room : Nat) {feed : Feed} (h : feed.LoneDelete)
    (hlength : feed.remaining.length < supply) :
    ∃ f refusal after, feed.fault = some f ∧ line supply room feed = .error refusal after ∧
      after.diagnostics = feed.diagnostics ++ [.scan f] := by
  obtain ⟨t, hfeed, hword, hfault⟩ := h
  obtain ⟨f, hf⟩ := Option.ne_none_iff_exists'.1 hfault
  have hnoexit : isWord exitWords t = false := by
    unfold isWord at hword ⊢
    simp only [Bool.and_eq_true, List.contains_iff_mem, deleteWords, List.mem_singleton] at hword
    rw [hword.2]
    simp [exitWords]
  have hexit : Yields exitCommand feed True none [t] :=
    yields_exitCommand_none hfeed fun hexit => absurd hexit (by simp [hnoexit])
  obtain ⟨mid, hread, hquiet, hmid⟩ := hexit.ok trivial
  obtain ⟨mid', hread', hmid', hfault', hfailed', hdiagnostics'⟩ :=
    deleteCommand_of_loneDelete hmid hword (hquiet.fault.trans hf)
  rw [hquiet.diagnostics] at hdiagnostics'
  -- the word is read as a name, in whatever room there is
  have hname : Expression [t] (.var t.lexeme) :=
    .operation (.of_primary (.name (isWord_kind hword)) 0)
  obtain ⟨depth, hdepth⟩ : HasDepth .expression [t] _ Closes := hname.hasDepth.of_eq fun _ _ => rfl
  have hphrase := hdepth supply room mid' [] hmid' (fun _ => hfault') (by simp [Closes])
    (by rwa [hmid', ← hfeed])
  have hcontent : content supply room feed = (do
      let e ← phrase supply room .expression
      pure (Line.expression e)) mid' := by
    unfold content command
    rw [bind_assoc, bind_of_ok hread]
    dsimp only
    rw [bind_of_ok hread']
  by_cases hroom : depth ≤ room
  · obtain ⟨after, hok, hquiet', hafter⟩ := hphrase.ok hroom
    have hread'' : content supply room feed = .ok (.expression (.var t.lexeme)) after := by
      rw [hcontent, bind_of_ok hok]
      rfl
    have hends := ending_ends (.expression (.var t.lexeme)) after
    have hfailed := hquiet'.failed.trans hfailed'
    generalize hend : ending (.expression (.var t.lexeme)) after = result at hends
    cases hends with
    | found passes sound => exact absurd (passes.failed hfailed) (by simp [sound])
    | @refused last taken reports passes reported =>
      refine ⟨f, .unparsable, last, hf, ?_, ?_⟩
      · rw [line_eq, bind_of_ok hread'', hend]
      · obtain rfl := passes.reports_of_failed hafter (hquiet'.fault.trans hfault') hfailed
        rw [passes.diagnostics, List.append_nil, hquiet'.diagnostics, hdiagnostics']
  · obtain ⟨after, herror, hquiet'⟩ := hphrase.tooDeep hroom
    refine ⟨f, .tooDeep, after, hf, ?_, hquiet'.diagnostics.trans hdiagnostics'⟩
    rw [line_eq]
    refine bind_of_error ?_
    rw [hcontent, bind_of_error herror]

end Reader

/-- A text is read as the line that its feed holds. -/
theorem parse_eq (text : String) (room : Nat) : parse text room = Parse.ofResult
    (Reader.line ((Feed.ofText text).remaining.length + 1) room (Feed.ofText text)) := rfl

/-- A text that is read as a line is one for the reader of lines. -/
theorem Parse.exists_ok_of_line? {text : String} {room : Nat} {l : Line}
    (h : (parse text room).line? = some l) : ∃ after,
      Reader.line ((Feed.ofText text).remaining.length + 1) room (Feed.ofText text) =
        .ok l after := by
  rw [parse_eq] at h
  match hread : Reader.line ((Feed.ofText text).remaining.length + 1) room (Feed.ofText text) with
  | .ok l' after =>
    rw [hread] at h
    cases h
    exact ⟨after, rfl⟩
  | .error .unparsable after =>
    rw [hread] at h
    cases h
  | .error .tooDeep after =>
    rw [hread] at h
    cases h

end LineCalculator
