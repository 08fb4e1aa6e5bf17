import LineCalculator.Proofs.Reading.Language
import LineCalculator.Proofs.Reading.LineAccount

/-!
# Reading with less room

Less room for phrases shows in one way only.  A reader with less room does what it does with
more, token by token, up to the phrase that it has no room for, and there it refuses
(`Reader.line_agrees`).  So a text that is not too deep is read as the same line, and the same is
seen of the reading, however much more room there might be (`parse_eq_of_le`).

A request to end the session has no phrases, and what room there is does not matter to it
(`line?_eq_exit_iff`).
-/

namespace LineCalculator

namespace Reader

variable {α β : Type}

/-- On a feed, a reader refuses for want of room. -/
def RunsOut (reader : Reader α) (feed : Feed) : Prop := ∃ after, reader feed = .error .tooDeep after

/-- A reader does the same as another one unless it runs out of room. -/
def Agrees (reader wider : Reader α) : Prop :=
  ∀ feed, reader.RunsOut feed ∨ reader feed = wider feed

namespace Agrees

theorem refl (reader : Reader α) : reader.Agrees reader := fun _ => Or.inr rfl

theorem overflow (wider : Reader α) : Reader.overflow.Agrees wider := fun feed => Or.inl ⟨feed, rfl⟩

theorem bind {reader wider : Reader α} {next next' : α → Reader β} (h : reader.Agrees wider)
    (hnext : ∀ a, (next a).Agrees (next' a)) : (reader >>= next).Agrees (wider >>= next') := by
  intro feed
  rcases h feed with ⟨after, hread⟩ | hread
  · exact Or.inl ⟨after, bind_of_error hread⟩
  · cases hwider : wider feed with
    | ok a mid =>
      rw [hwider] at hread
      rw [RunsOut, bind_of_ok hread, bind_of_ok hwider]
      exact hnext a mid
    | error refusal mid =>
      rw [hwider] at hread
      exact Or.inr ((bind_of_error hread).trans (bind_of_error hwider).symm)

/-- What follows a reader may have less room. -/
theorem bind_right (reader : Reader α) {next next' : α → Reader β}
    (hnext : ∀ a, (next a).Agrees (next' a)) : (reader >>= next).Agrees (reader >>= next') :=
  (refl reader).bind hnext

/-- A reader may have less room that something follows. -/
theorem bind_left {reader wider : Reader α} (h : reader.Agrees wider) (next : α → Reader β) :
    (reader >>= next).Agrees (wider >>= next) :=
  h.bind fun a => refl (next a)

theorem optional {reader wider : Reader α} (h : reader.Agrees wider) :
    (Reader.optional reader).Agrees (Reader.optional wider) := by
  intro feed
  rcases h feed with ⟨after, hread⟩ | hread
  · exact Or.inl ⟨after, optional_of_tooDeep hread⟩
  · refine Or.inr ?_
    rw [Reader.optional, hread, Reader.optional]

end Agrees

/-! ## Phrases -/

section Parts

variable {part wider : Reader Expr} (h : part.Agrees wider)
include h

theorem links_agrees (level supply : Nat) (left : Expr) :
    (links level part supply left).Agrees (links level wider supply left) := by
  induction supply generalizing left with
  | zero => exact .refl _
  | succ supply ih =>
    refine .bind_right draw fun t? => ?_
    cases t? with
    | none => exact .refl _
    | some t =>
      dsimp only
      cases t.kind.operatorAt? level with
      | none => exact .refl _
      | some op =>
        refine .bind h.optional fun right? => ?_
        cases right? with
        | none => exact .refl _
        | some right => exact ih (.binary op left right)

theorem chain_agrees (supply level : Nat) :
    (chain supply level part).Agrees (chain supply level wider) :=
  .bind h fun left => links_agrees h level supply left

theorem signed_agrees (supply : Nat) : (signed supply part).Agrees (signed supply wider) :=
  .bind_right (signs supply []) fun _ => h.bind_left _

theorem moreArguments_agrees (supply : Nat) (read : List Expr) :
    (moreArguments part supply read).Agrees (moreArguments wider supply read) := by
  induction supply generalizing read with
  | zero => exact .refl _
  | succ supply ih =>
    refine .bind h fun e => .bind_right expect fun t => ?_
    split
    · exact .refl _
    · exact ih (e :: read)
    · exact .refl _

theorem arguments_agrees (supply : Nat) :
    (arguments supply part).Agrees (arguments supply wider) := by
  have hmore := moreArguments_agrees h supply []
  refine .bind_right draw fun t? => ?_
  cases t? with
  | none => exact hmore
  | some t =>
    dsimp only
    split
    · exact .refl _
    · exact .bind_right (handBack t) fun _ => hmore

theorem primary_agrees {callArguments wider' : Reader (List Expr)}
    (hcall : callArguments.Agrees wider') :
    (primary part callArguments).Agrees (primary wider wider') := by
  refine .bind_right expect fun t => ?_
  split
  · exact .refl _
  · refine .bind_right draw fun following? => ?_
    cases following? with
    | none => exact .refl _
    | some following =>
      dsimp only
      split
      · exact hcall.bind_left _
      · exact .refl _
  · exact h.bind_left _
  · exact .refl _

theorem assignment_agrees {value wider' : Reader Expr} (hvalue : value.Agrees wider') :
    (assignment part value).Agrees (assignment wider wider') := by
  refine .bind h fun e => ?_
  cases e with
  | var name =>
    refine .bind_right draw fun t? => ?_
    cases t? with
    | none => exact .refl _
    | some t =>
      dsimp only
      split
      · exact hvalue.bind_left _
      · exact hvalue.bind_left _
      · exact .refl _
      · exact .refl _
      · exact .refl _
  | _ => exact .refl _

end Parts

/-- A phrase is read alike with less room, unless that runs out. -/
theorem phrase_agrees (supply : Nat) {room wider : Nat} (h : room ≤ wider) (kind : Phrase) :
    (phrase supply room kind).Agrees (phrase supply wider kind) := by
  induction room generalizing wider kind with
  | zero => exact .overflow _
  | succ room ih =>
    obtain ⟨wider, rfl⟩ := Nat.exists_eq_add_of_le' (Nat.le_trans (Nat.le_add_left 1 room) h)
    have hpart := ih (Nat.le_of_succ_le_succ h)
    cases kind with
    | expression => exact hpart .assignment
    | assignment => exact assignment_agrees (hpart (.operation 0)) (hpart .assignment)
    | operation level =>
      unfold phrase
      split
      · exact chain_agrees (hpart (.operation (level + 1))) supply level
      · exact hpart .signed
    | signed => exact signed_agrees (hpart .primary) supply
    | primary =>
      exact primary_agrees (hpart .expression) (arguments_agrees (hpart .argument) supply)
    | argument => exact hpart .expression

/-! ## Lines -/

/-- **A line is read alike with less room, unless that runs out.** -/
theorem line_agrees (supply : Nat) {room wider : Nat} (h : room ≤ wider) :
    (line supply room).Agrees (line supply wider) := by
  have hphrase := phrase_agrees supply h .expression
  rw [line_eq, line_eq]
  refine .bind_left (.bind_right command fun command? => ?_) ending
  cases command? with
  | some command => exact .refl _
  | none => exact hphrase.bind_left _

/-- A request to end the session is read in any room. -/
theorem line_exit {supply room : Nat} {feed after : Feed}
    (h : line supply room feed = .ok .exit after) (other : Nat) :
    line supply other feed = .ok .exit after := by
  rw [line_eq] at h ⊢
  obtain ⟨l, mid, hcontent, hending⟩ := bind_eq_ok h
  obtain ⟨-, rfl, -⟩ := ending_eq_ok hending
  obtain ⟨command?, next, hcommand, hrest⟩ := bind_eq_ok hcontent
  have hcontent' : content supply other feed = .ok .exit mid := by
    refine (bind_of_ok hcommand).trans ?_
    cases command? with
    | some command => exact hrest
    | none =>
      -- a line that is no command is an expression
      obtain ⟨e, last, -, hexpression⟩ := bind_eq_ok hrest
      cases hexpression
  exact (bind_of_ok hcontent').trans hending

end Reader

/-! ## Texts -/

namespace Parse

/-- What is too deep has been reported so, and is no line. -/
theorem of_runsOut {room : Nat} {feed : Feed}
    (h : (Reader.line (feed.remaining.length + 1) room).RunsOut feed) :
    .parse .tooDeep ∈ (ofFeed room feed).diagnostics ∧ (ofFeed room feed).line? = none := by
  obtain ⟨after, hread⟩ := h
  refine ⟨tooDeep_mem_of_error hread, ?_⟩
  unfold ofFeed
  exact congrArg (fun result => (ofResult result).line?) hread

end Parse

section Texts

variable {text : String} {room wider : Nat}

/-- With less room a text is read alike, or it is reported as too deep. -/
theorem parse_eq_or_tooDeep (text : String) (h : room ≤ wider) :
    (.parse .tooDeep ∈ (parse text room).diagnostics ∧ (parse text room).line? = none) ∨
      parse text room = parse text wider := by
  have hagrees := Reader.line_agrees ((Feed.ofText text).remaining.length + 1) h (Feed.ofText text)
  exact hagrees.imp Parse.of_runsOut (congrArg Parse.ofResult)

/-- Less room makes no line of what is none. -/
theorem line?_eq_none_of_le (h : room ≤ wider) (hnone : (parse text wider).line? = none) :
    (parse text room).line? = none := by
  rcases parse_eq_or_tooDeep text h with ⟨-, hdeep⟩ | heq
  · exact hdeep
  · rw [heq, hnone]

/-- **What asks for the end of a session does so in any room.** -/
theorem line?_eq_exit_iff (text : String) (room other : Nat) :
    (parse text room).line? = some .exit ↔ (parse text other).line? = some .exit := by
  have hother : ∀ room other, (parse text room).line? = some .exit →
      (parse text other).line? = some .exit := by
    intro room other h
    obtain ⟨after, hread⟩ := Parse.exists_ok_of_line? h
    have hread' := Reader.line_exit hread other
    exact congrArg (fun result => (Parse.ofResult result).line?) hread'
  exact ⟨hother room other, hother other room⟩

end Texts

end LineCalculator
