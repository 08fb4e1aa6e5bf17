import LineCalculator.Proofs.Reading.Silence

/-!
# The account of a reading

Whatever a reader comes to, it leaves behind an account: the tokens it has taken from
the feed and the diagnostics it has reported, each in their order.  The account is not
the whole of what was drawn, because tokens that were handed back have not been taken.

## What an account is like

`Feed.Passes feed after taken reports` says that reading has led from `feed` to `after`
with this account.  Reports and tokens go together in one way only: first come
diagnostics that cite a token each, and these tokens have been taken in the same order
(`Cite`); after them, and only when there are no tokens left, either the end of input is
reported, once or more often, or the fault that the tokens end with, once (`Closing`).

Accounts of readings one after the other add up (`Passes.trans`).  The reason is that a
feed that has closed yields nothing any more, so that nothing can be taken or cited
behind a report of the end.

## Why handing back is not part of it

A token handed back is taken from nobody: it goes back to where drawing found it.  So
there is no account of handing back alone, only of drawing a token and handing it back
(`Drew.passes_withBack`), and that is the account of having done nothing.
-/

namespace LineCalculator

/-- The token of a reading that is one. -/
def Reading.token? : Reading → Option Token
  | drew t => some t
  | reported _ => none

/-- The token that a diagnostic says is wrong, if it blames one. -/
def Diagnostic.cited? : Diagnostic → Option Token
  | .parse (.unexpectedToken t) => some t
  | .parse (.invalidNumber t) => some t
  | _ => none

/-! ## Citing tokens in their order -/

/-- Diagnostics that cite a token each, all of them among the given tokens and in the
order of these. -/
def Cite (reports : List Diagnostic) (taken : List Token) : Prop :=
  ∃ cited : List Token, reports.map (·.cited?) = cited.map some ∧ cited.Sublist taken

namespace Cite

variable {reports reports' : List Diagnostic} {taken taken' : List Token}

theorem nil (taken : List Token) : Cite [] taken := ⟨[], rfl, List.nil_sublist taken⟩

theorem single {d : Diagnostic} {t : Token} (h : d.cited? = some t) : Cite [d] [t] :=
  ⟨[t], by simp [h], List.Sublist.refl [t]⟩

theorem append (h : Cite reports taken) (h' : Cite reports' taken') :
    Cite (reports ++ reports') (taken ++ taken') := by
  obtain ⟨cited, hcited, hsub⟩ := h
  obtain ⟨cited', hcited', hsub'⟩ := h'
  exact ⟨cited ++ cited', by rw [List.map_append, List.map_append, hcited, hcited'],
    hsub.append hsub'⟩

/-- Without tokens there is nothing to cite. -/
theorem eq_nil (h : Cite reports []) : reports = [] := by
  obtain ⟨cited, hcited, hsub⟩ := h
  rw [List.sublist_nil.1 hsub] at hcited
  simpa using hcited

/-- A diagnostic that cites nothing is not among some that do. -/
theorem notMem (h : Cite reports taken) {d : Diagnostic} (hd : d.cited? = none) :
    d ∉ reports := by
  obtain ⟨cited, hcited, -⟩ := h
  intro hmem
  have hsome : d.cited? ∈ cited.map some := hcited ▸ List.mem_map_of_mem hmem
  rw [hd] at hsome
  simp at hsome

end Cite

namespace Feed

/-! ## What has been drawn -/

/-- The tokens drawn so far, each when it was drawn for the first time. -/
def drawn (feed : Feed) : List Token := feed.readings.toList.filterMap (·.token?)

/-- A newline that has been handed back has nothing behind it that was. -/
def Orderly (feed : Feed) : Prop := ∀ t ∈ feed.tokens.returned.dropLast, t.kind ≠ .newline

theorem orderly_ofText (text : String) : (ofText text).Orderly := by
  intro t ht
  cases ht

/-- How drawing a token changes a feed. -/
structure Drew (feed : Feed) (t : Token) (after : Feed) : Prop where
  remaining : feed.remaining = t :: after.remaining
  returned : after.tokens.returned = feed.tokens.returned.tail
  first : ∀ u ∈ feed.tokens.returned.head?, u = t
  source : after.drawn ++ after.tokens.coming = feed.drawn ++ feed.tokens.coming
  quietly : feed.Quietly after

theorem drew_of_draw {feed after : Feed} {t : Token} (h : Reader.draw feed = .ok (some t) after) :
    feed.Drew t after := by
  obtain ⟨⟨returned, coming⟩, fault, failed, readings⟩ := feed
  cases returned with
  | cons u returned =>
    cases h
    exact ⟨rfl, rfl, by simp, rfl, ⟨rfl, rfl, rfl⟩⟩
  | nil =>
    cases coming with
    | cons u coming =>
      cases h
      refine ⟨rfl, rfl, by simp, ?_, ⟨rfl, rfl, ?_⟩⟩
      · simp [drawn, Reading.token?]
      · simp [diagnostics, Reading.diagnostic?]
    | nil =>
      cases fault with
      | none => cases h
      | some f => cases h

/-- The feed with a token handed back. -/
def withBack (feed : Feed) (t : Token) : Feed := { feed with tokens := feed.tokens.push t }

theorem handBack_withBack (feed : Feed) (t : Token) :
    Reader.handBack t feed = .ok () (feed.withBack t) := rfl

theorem remaining_withBack (feed : Feed) (t : Token) :
    (feed.withBack t).remaining = t :: feed.remaining := rfl

/-! ## Accounts -/

/-- How the reports of a reading end, by the feeds before and after it. -/
inductive Closing (feed after : Feed) : List Diagnostic → Prop
  /-- The tokens have not run out, or nobody has noticed. -/
  | open (fault : after.fault = feed.fault) (failed : after.failed = feed.failed) :
      Closing feed after []
  /-- The tokens have run out where more were needed. -/
  | ended (times : Nat) (before : feed.fault = none) (sound : feed.failed = false)
      (fault : after.fault = none) (failed : after.failed = false)
      (nothing : after.remaining = []) :
      Closing feed after (List.replicate (times + 1) (.parse .endOfInput))
  /-- The tokens have run out in a fault. -/
  | faulted (f : ScanFault) (before : feed.fault = some f) (fault : after.fault = none)
      (failed : after.failed = true) (nothing : after.remaining = []) :
      Closing feed after [.scan f]

/-- Reading has led from one feed to another, has taken some tokens for it and has
reported some diagnostics. -/
structure Passes (feed after : Feed) (taken : List Token) (reports : List Diagnostic) :
    Prop where
  remaining : feed.remaining = taken ++ after.remaining
  diagnostics : after.diagnostics = feed.diagnostics ++ reports
  source : after.drawn ++ after.tokens.coming = feed.drawn ++ feed.tokens.coming
  orderly : feed.Orderly → after.Orderly
  closing : ∃ citing closing, reports = citing ++ closing ∧ Cite citing taken ∧
    Closing feed after closing

namespace Closing

variable {feed mid after : Feed} {closing closing' : List Diagnostic}

theorem remaining (h : Closing feed after closing) (hclosing : closing ≠ []) :
    after.remaining = [] := by
  cases h with
  | «open» fault failed => exact absurd rfl hclosing
  | ended times before sound fault failed nothing => exact nothing
  | faulted f before fault failed nothing => exact nothing

/-- A feed that has closed may close again, but not in a fault. -/
theorem trans (h : Closing feed mid closing) (h' : Closing mid after closing')
    (hafter : closing ≠ [] → after.remaining = []) :
    Closing feed after (closing ++ closing') := by
  cases h with
  | «open» fault failed =>
    cases h' with
    | «open» fault' failed' => exact .open (fault'.trans fault) (failed'.trans failed)
    | ended times before sound fault' failed' nothing =>
      exact .ended times (fault.symm.trans before) (failed.symm.trans sound) fault' failed' nothing
    | faulted f before fault' failed' nothing =>
      exact .faulted f (fault.symm.trans before) fault' failed' nothing
  | ended times before sound fault failed nothing =>
    have hnothing := hafter (by simp)
    cases h' with
    | «open» fault' failed' =>
      rw [List.append_nil]
      exact .ended times before sound (fault'.trans fault) (failed'.trans failed) hnothing
    | ended times' before' sound' fault' failed' nothing' =>
      rw [List.replicate_append_replicate]
      exact .ended (times + 1 + times') before sound fault' failed' hnothing
    | faulted f before' => exact absurd before' (by simp [fault])
  | faulted f before fault failed nothing =>
    have hnothing := hafter (by simp)
    cases h' with
    | «open» fault' failed' =>
      exact .faulted f before (fault'.trans fault) (failed'.trans failed) hnothing
    | ended times before' sound' => exact absurd failed (by simp [sound'])
    | faulted f' before' => exact absurd before' (by simp [fault])

end Closing

/-- Reports that cite tokens change nothing about the end of the tokens. -/
theorem closing_of_cite {feed after : Feed} {citing : List Diagnostic} {taken : List Token}
    (hcite : Cite citing taken) (fault : after.fault = feed.fault)
    (failed : after.failed = feed.failed) :
    ∃ citing' closing, citing = citing' ++ closing ∧ Cite citing' taken ∧
      Closing feed after closing :=
  ⟨citing, [], (List.append_nil citing).symm, hcite, .open fault failed⟩

namespace Passes

variable {feed mid after : Feed} {taken taken' : List Token} {reports reports' : List Diagnostic}

theorem refl (feed : Feed) : feed.Passes feed [] [] where
  remaining := rfl
  diagnostics := (List.append_nil _).symm
  source := rfl
  orderly := id
  closing := closing_of_cite (.nil []) rfl rfl

/-- A feed that has failed stays so. -/
theorem failed (h : feed.Passes after taken reports) (hfailed : feed.failed = true) :
    after.failed = true := by
  obtain ⟨citing, closing, -, -, hclosing⟩ := h.closing
  cases hclosing with
  | «open» fault failed => exact failed.trans hfailed
  | ended times before sound => exact absurd hfailed (by simp [sound])
  | faulted f before fault failed => exact failed

theorem sound (h : feed.Passes after taken reports) (hsound : after.failed = false) :
    feed.failed = false := by
  cases hfailed : feed.failed with
  | false => rfl
  | true => exact absurd (h.failed hfailed) (by simp [hsound])

/-- A feed that has not failed still has the fault that will end it, if it has any. -/
theorem fault_of_sound (h : feed.Passes after taken reports) (hsound : after.failed = false) :
    after.fault = feed.fault := by
  obtain ⟨citing, closing, -, -, hclosing⟩ := h.closing
  cases hclosing with
  | «open» fault failed => exact fault
  | ended times before sound fault => exact fault.trans before.symm
  | faulted f before fault failed => exact absurd failed (by simp [hsound])

/-- Where the end of input has been reported there is nothing to come. -/
theorem remaining_of_endOfInput (h : feed.Passes after taken reports)
    (hend : .parse .endOfInput ∈ reports) : after.remaining = [] := by
  obtain ⟨citing, closing, rfl, hcite, hclosing⟩ := h.closing
  have hmem := (List.mem_append.1 hend).resolve_left (hcite.notMem rfl)
  exact hclosing.remaining (List.ne_nil_of_mem hmem)

theorem eq_nil_of_remaining (h : feed.Passes after taken reports) (hnil : feed.remaining = []) :
    taken = [] ∧ after.remaining = [] :=
  List.append_eq_nil_iff.1 (h.remaining.symm.trans hnil)

/-- Nothing is taken after the end of input has been reported. -/
theorem taken_of_endOfInput (h : feed.Passes mid taken reports)
    (h' : mid.Passes after taken' reports') (hend : .parse .endOfInput ∈ reports) :
    taken' = [] :=
  (h'.eq_nil_of_remaining (h.remaining_of_endOfInput hend)).1

theorem length_le (h : feed.Passes after taken reports) :
    after.remaining.length ≤ feed.remaining.length := by
  rw [h.remaining, List.length_append]
  omega

/-- Nothing is reported of a feed that has failed and has nothing to come. -/
theorem reports_of_failed (h : feed.Passes after taken reports) (hnil : feed.remaining = [])
    (hfault : feed.fault = none) (hfailed : feed.failed = true) : reports = [] := by
  obtain ⟨rfl, -⟩ := h.eq_nil_of_remaining hnil
  obtain ⟨citing, closing, rfl, hcite, hclosing⟩ := h.closing
  obtain rfl := hcite.eq_nil
  cases hclosing with
  | «open» fault failed => rfl
  | ended times before sound => exact absurd hfailed (by simp [sound])
  | faulted f before => exact absurd before (by simp [hfault])

/-- **Accounts add up.** -/
theorem trans (h : feed.Passes mid taken reports) (h' : mid.Passes after taken' reports') :
    feed.Passes after (taken ++ taken') (reports ++ reports') where
  remaining := by rw [h.remaining, h'.remaining, List.append_assoc]
  diagnostics := by rw [h'.diagnostics, h.diagnostics, List.append_assoc]
  source := h'.source.trans h.source
  orderly := fun horderly => h'.orderly (h.orderly horderly)
  closing := by
    obtain ⟨citing, closing, rfl, hcite, hclosing⟩ := h.closing
    obtain ⟨citing', closing', rfl, hcite', hclosing'⟩ := h'.closing
    by_cases hopen : closing = []
    · subst hopen
      exact ⟨citing ++ citing', closing', by simp, hcite.append hcite',
        hclosing.trans hclosing' (by simp)⟩
    · -- once the first reading has closed, the second takes nothing and so cites nothing
      obtain ⟨rfl, hafter⟩ := h'.eq_nil_of_remaining (hclosing.remaining hopen)
      obtain rfl := hcite'.eq_nil
      exact ⟨citing, closing ++ closing', by simp, by simpa using hcite,
        hclosing.trans hclosing' fun _ => hafter⟩

end Passes

/-! ## Accounts of single steps -/

namespace Drew

variable {feed mid after : Feed} {t u : Token}

theorem orderly (h : feed.Drew t after) (horderly : feed.Orderly) : after.Orderly := by
  intro u hu
  rw [h.returned] at hu
  refine horderly u ?_
  cases hreturned : feed.tokens.returned with
  | nil => simp [hreturned] at hu
  | cons v returned =>
    rw [hreturned, List.tail_cons] at hu
    cases returned with
    | nil => simp at hu
    | cons w returned => exact List.mem_cons_of_mem v hu

/-- A newline is drawn only when nothing has been handed back behind it. -/
theorem returned_of_newline (h : feed.Drew t after) (horderly : feed.Orderly)
    (ht : t.kind = .newline) : after.tokens.returned = [] := by
  rw [h.returned]
  cases hreturned : feed.tokens.returned with
  | nil => rfl
  | cons v returned =>
    cases returned with
    | nil => rfl
    | cons w returned =>
      have hv : v = t := h.first v (by simp [hreturned])
      exact absurd (hv ▸ ht) (horderly v (by simp [hreturned]))

theorem passes (h : feed.Drew t after) : feed.Passes after [t] [] where
  remaining := h.remaining
  diagnostics := h.quietly.diagnostics.trans (List.append_nil _).symm
  source := h.source
  orderly := h.orderly
  closing := closing_of_cite (.nil _) h.quietly.fault h.quietly.failed

theorem passes_note (h : feed.Drew t mid) {d : Diagnostic} (hd : d.cited? = some t) :
    feed.Passes (mid.note (.reported d)) [t] [d] where
  remaining := h.remaining
  diagnostics := by rw [diagnostics_note, h.quietly.diagnostics]
  source := by
    rw [← h.source]
    simp [drawn, note, Reading.token?]
  orderly := h.orderly
  closing := closing_of_cite (.single hd) h.quietly.fault h.quietly.failed

/-- To draw a token and hand it back is to take nothing. -/
theorem passes_withBack (h : feed.Drew t mid) : feed.Passes (mid.withBack t) [] [] where
  remaining := h.remaining
  diagnostics := h.quietly.diagnostics.trans (List.append_nil _).symm
  source := h.source
  orderly := by
    intro horderly u hu
    cases hreturned : feed.tokens.returned with
    | nil =>
      have hback : (mid.withBack t).tokens.returned = [t] := by
        show t :: mid.tokens.returned = [t]
        rw [h.returned, hreturned, List.tail_nil]
      rw [hback] at hu
      simp at hu
    | cons v returned =>
      have hback : (mid.withBack t).tokens.returned = feed.tokens.returned := by
        show t :: mid.tokens.returned = feed.tokens.returned
        rw [h.returned, hreturned, List.tail_cons, h.first v (by simp [hreturned])]
      rw [hback] at hu
      exact horderly u hu
  closing := closing_of_cite (.nil _) h.quietly.fault h.quietly.failed

end Drew

/-- A token that ends no line may be handed back also after others have been. -/
theorem Passes.withBack {feed mid : Feed} {t : Token} (h : feed.Passes mid [t] [])
    (ht : t.kind ≠ .newline) : feed.Passes (mid.withBack t) [] [] where
  remaining := h.remaining
  diagnostics := h.diagnostics
  source := h.source
  orderly := by
    intro horderly u hu
    have hmid := h.orderly horderly
    have hback : (mid.withBack t).tokens.returned = t :: mid.tokens.returned := rfl
    rw [hback] at hu
    cases hreturned : mid.tokens.returned with
    | nil => simp [hreturned] at hu
    | cons v returned =>
      rw [hreturned, List.dropLast_cons_cons] at hu
      rcases List.mem_cons.1 hu with rfl | hu
      · exact ht
      · exact hmid u (by rw [hreturned]; exact hu)
  closing := by
    obtain ⟨citing, closing, hnil, -, hclosing⟩ := h.closing
    obtain ⟨rfl, rfl⟩ := List.append_eq_nil_iff.1 hnil.symm
    cases hclosing with
    | «open» fault failed => exact closing_of_cite (.nil []) fault failed

/-- Drawing yields a token or finds that there is none. -/
theorem draw_cases (feed : Feed) :
    (∃ t after, Reader.draw feed = .ok (some t) after ∧ feed.Drew t after) ∨
      ∃ after, Reader.draw feed = .ok none after := by
  rcases hdraw : Reader.draw feed with ⟨_ | t, after⟩ | ⟨refusal, after⟩
  · exact Or.inr ⟨after, rfl⟩
  · exact Or.inl ⟨t, after, rfl, drew_of_draw hdraw⟩
  · unfold Reader.draw at hdraw
    split at hdraw <;> cases hdraw

/-- Drawing where a fault ends the tokens meets it. -/
theorem draw_of_fault {feed : Feed} {f : ScanFault} (hnil : feed.remaining = [])
    (hf : feed.fault = some f) :
    ∃ after, Reader.draw feed = .ok none after ∧ feed.Passes after [] [.scan f] ∧
      after.remaining = [] ∧ after.fault = none ∧ after.failed = true := by
  obtain ⟨⟨returned, coming⟩, fault, failed, readings⟩ := feed
  obtain ⟨rfl, rfl⟩ := List.append_eq_nil_iff.1 hnil
  obtain rfl : fault = some f := hf
  refine ⟨_, rfl, ⟨rfl, ?_, ?_, id, ?_⟩, rfl, rfl, rfl⟩
  · simp [diagnostics, Reading.diagnostic?]
  · simp [drawn, Reading.token?]
  · exact ⟨[], [.scan f], rfl, .nil [], .faulted f rfl rfl rfl rfl⟩

/-- Drawing at the end of the tokens finds the end, or it meets a fault. -/
theorem passes_of_draw_none {feed after : Feed} (h : Reader.draw feed = .ok none after) :
    feed.remaining = [] ∧ ∃ reports, feed.Passes after [] reports ∧ after.remaining = [] ∧
      after.fault = none ∧ (after.failed = false → after = feed ∧ reports = []) := by
  have hnil : feed.remaining = [] := by
    cases hfeed : feed.remaining with
    | nil => rfl
    | cons t rest =>
      obtain ⟨mid, hdraw, -⟩ := Reader.draw_cons hfeed
      rw [hdraw] at h
      cases h
  refine ⟨hnil, ?_⟩
  cases hf : feed.fault with
  | none =>
    rw [Reader.draw_end hnil hf] at h
    cases h
    exact ⟨[], .refl feed, hnil, hf, fun _ => ⟨rfl, rfl⟩⟩
  | some f =>
    obtain ⟨mid, hdraw, hpasses, hmid, hfault, hfailed⟩ := draw_of_fault hnil hf
    rw [hdraw] at h
    cases h
    exact ⟨[.scan f], hpasses, hmid, hfault, fun hsound => absurd hfailed (by simp [hsound])⟩

/-- The end of input is reported where there are no tokens left and no fault has ended
them. -/
theorem passes_note_endOfInput {feed : Feed} (hnil : feed.remaining = [])
    (hfault : feed.fault = none) (hsound : feed.failed = false) :
    feed.Passes (feed.note (.reported (.parse .endOfInput))) [] [.parse .endOfInput] where
  remaining := rfl
  diagnostics := diagnostics_note feed _
  source := by simp [drawn, note, Reading.token?]
  orderly := id
  closing := ⟨[], [.parse .endOfInput], rfl, .nil [], .ended 0 hfault hsound hfault hsound hnil⟩

end Feed

end LineCalculator
