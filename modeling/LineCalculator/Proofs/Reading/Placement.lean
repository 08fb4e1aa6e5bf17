import LineCalculator.Proofs.Reading.FirstLine
import LineCalculator.Proofs.Scanning.Spelling

/-!
# Where tokens stand does not matter

A reader looks at kinds, forms and lexemes of tokens.  Places and lengths it hands on to the
diagnostics and does not look at.  So two texts with the same tokens are read as the same
line, whatever blanks stand between the tokens and however their numbers are spelled, and the
same is reported but for the places (`parse_of_same_tokens`).

## Two runs or one

Both texts are compared with a third run, in which every token has been moved to the start of
the text (`Feed.placeless`).  `Beside reader other` says that `other` does on such a feed what
`reader` does on the feed that it was made of, up to places.  A reader is mostly beside
itself; two readers are needed only where one goes on from a token that has been drawn, and the
other from that token without its place.  The judgement covers successes, refusals and want of
room alike, as the feed that is left is part of it.
-/

namespace LineCalculator

/-! ## Blotting out places -/

/-- A token with its place and its length blotted out. -/
def Token.placeless (t : Token) : Token := { t with position := .start, length := 0 }

/-- A fault with its place blotted out. -/
def ScanFault.placeless (f : ScanFault) : ScanFault := { f with position := .start }

/-- What is wrong with some tokens, with the place of a token cited blotted out. -/
def ParseFault.placeless : ParseFault → ParseFault
  | unexpectedToken t => unexpectedToken t.placeless
  | invalidNumber t => invalidNumber t.placeless
  | endOfInput => endOfInput
  | tooDeep => tooDeep

/-- A diagnostic with its place blotted out. -/
def Diagnostic.placeless : Diagnostic → Diagnostic
  | scan f => scan f.placeless
  | parse f => parse f.placeless

/-- Something seen of a reading, with its place blotted out. -/
def Reading.placeless : Reading → Reading
  | drew t => drew t.placeless
  | reported d => reported d.placeless

/-- A feed in which all places are blotted out, also of what has been seen. -/
def Feed.placeless (feed : Feed) : Feed where
  tokens := ⟨feed.tokens.returned.map Token.placeless, feed.tokens.coming.map Token.placeless⟩
  fault := feed.fault.map ScanFault.placeless
  failed := feed.failed
  readings := feed.readings.map Reading.placeless

@[simp] theorem Token.kind_placeless (t : Token) : t.placeless.kind = t.kind := rfl

@[simp] theorem Token.lexeme_placeless (t : Token) : t.placeless.lexeme = t.lexeme := rfl

@[simp] theorem Token.value?_placeless (t : Token) : t.placeless.value? = t.value? := rfl

/-- What is left of a token is what it is without its place. -/
theorem Token.placeless_eq (t : Token) : t.placeless =
    ⟨t.unplaced.kind, String.ofList t.unplaced.lexeme, t.unplaced.form, .start, 0⟩ := by
  simp [placeless, unplaced]

/-- Tokens that differ in their places only are the same without them. -/
theorem map_placeless_eq {ts us : List Token}
    (h : ts.map Token.unplaced = us.map Token.unplaced) :
    ts.map Token.placeless = us.map Token.placeless := by
  have hmap : ∀ ts : List Token, ts.map Token.placeless = (ts.map Token.unplaced).map fun u =>
      ⟨u.kind, String.ofList u.lexeme, u.form, .start, 0⟩ := by
    intro ts
    rw [List.map_map]
    exact List.map_congr_left fun t _ => t.placeless_eq
  rw [hmap, hmap, h]

theorem Feed.placeless_note (feed : Feed) (reading : Reading) :
    (feed.note reading).placeless = feed.placeless.note reading.placeless := by
  simp [note, placeless]

theorem Feed.length_placeless (feed : Feed) :
    feed.placeless.tokens.toList.length = feed.tokens.toList.length := by
  simp [placeless, Lookahead.toList]

theorem Reading.diagnostic?_placeless (r : Reading) :
    r.placeless.diagnostic? = r.diagnostic?.map Diagnostic.placeless := by
  cases r <;> rfl

namespace Reader

variable {α β : Type}

/-! ## The judgement -/

/-- What comes of a run, with all places blotted out. -/
def placelessResult : EStateM.Result Refusal Feed α → EStateM.Result Refusal Feed α
  | .ok a after => .ok a after.placeless
  | .error refusal after => .error refusal after.placeless

/-- `other` does without places what `reader` does with them. -/
def Beside (reader other : Reader α) : Prop :=
  ∀ feed : Feed, other feed.placeless = placelessResult (reader feed)

namespace Beside

theorem pure (a : α) : Beside (Pure.pure a) (Pure.pure a) := fun _ => rfl

theorem overflow : Beside (Reader.overflow : Reader α) Reader.overflow := fun _ => rfl

theorem refuse (f : ParseFault) :
    Beside (Reader.refuse f : Reader α) (Reader.refuse f.placeless) := by
  intro feed
  exact congrArg (EStateM.Result.error Refusal.unparsable)
    (feed.placeless_note (.reported (.parse f))).symm

theorem refuseEnd : Beside (Reader.refuseEnd : Reader α) Reader.refuseEnd := by
  intro feed
  unfold Reader.refuseEnd
  by_cases hfailed : feed.failed = true
  · rw [if_pos hfailed, if_pos (show feed.placeless.failed = true from hfailed)]
    rfl
  · rw [if_neg hfailed, if_neg (show ¬ feed.placeless.failed = true from hfailed)]
    exact refuse .endOfInput feed

/-- What is decided by a token is decided alike without its place. -/
theorem ite {p q : Prop} [Decidable p] [Decidable q] {reader other reader' other' : Reader α}
    (hsame : p ↔ q) (h : Beside reader other) (h' : Beside reader' other') :
    Beside (if p then reader else reader') (if q then other else other') := by
  by_cases hp : p
  · rw [if_pos hp, if_pos (hsame.1 hp)]
    exact h
  · rw [if_neg hp, if_neg fun hq => hp (hsame.2 hq)]
    exact h'

/-- A reader that has refused does not go on. -/
theorem refuseEnd_bind (next next' : β → Reader α) :
    Beside (Reader.refuseEnd >>= next) (Reader.refuseEnd >>= next') := by
  have hstop : ∀ next : β → Reader α, Reader.refuseEnd >>= next = Reader.refuseEnd := by
    intro next
    funext feed
    cases hfailed : feed.failed with
    | true => exact (bind_of_error (if_pos hfailed)).trans (if_pos hfailed).symm
    | false =>
      have hrefused : ∀ {γ : Type}, (Reader.refuseEnd : Reader γ) feed =
          Reader.refuse .endOfInput feed := if_neg (by simp [hfailed])
      exact (bind_of_error hrefused).trans hrefused.symm
  rw [hstop, hstop]
  exact refuseEnd

theorem bind {reader other : Reader α} {next next' : α → Reader β} (h : Beside reader other)
    (hnext : ∀ a, Beside (next a) (next' a)) : Beside (reader >>= next) (other >>= next') := by
  intro feed
  have hfirst := h feed
  cases hread : reader feed with
  | ok a after =>
    rw [hread] at hfirst
    rw [bind_of_ok hread, bind_of_ok hfirst]
    exact hnext a after
  | error refusal after =>
    rw [hread] at hfirst
    rw [bind_of_error hread, bind_of_error hfirst]
    rfl

/-- The token that is drawn without places is the one drawn with them, without its place. -/
theorem draw_placeless (feed : Feed) :
    Reader.draw feed.placeless = match Reader.draw feed with
      | .ok t? after => .ok (t?.map Token.placeless) after.placeless
      | .error refusal after => .error refusal after.placeless := by
  obtain ⟨⟨returned, coming⟩, fault, failed, readings⟩ := feed
  cases returned with
  | cons t returned => rfl
  | nil =>
    cases coming with
    | cons t coming => simp [Reader.draw, Feed.placeless, Reading.placeless]
    | nil =>
      cases fault with
      | none => rfl
      | some f => simp [Reader.draw, Feed.placeless, Reading.placeless, Diagnostic.placeless]

theorem draw_bind {next next' : Option Token → Reader α} (hnone : Beside (next none) (next' none))
    (hsome : ∀ t, Beside (next (some t)) (next' (some t.placeless))) :
    Beside (Reader.draw >>= next) (Reader.draw >>= next') := by
  intro feed
  have hdraw' := draw_placeless feed
  cases hdraw : Reader.draw feed with
  | ok t? after =>
    rw [hdraw] at hdraw'
    rw [bind_of_ok hdraw, bind_of_ok hdraw']
    cases t? with
    | none => exact hnone after
    | some t => exact hsome t after
  | error refusal after =>
    rw [hdraw] at hdraw'
    rw [bind_of_error hdraw, bind_of_error hdraw']
    rfl

theorem handBack_bind {next next' : Unit → Reader α} (t : Token)
    (h : Beside (next ()) (next' ())) :
    Beside (Reader.handBack t >>= next) (Reader.handBack t.placeless >>= next') := by
  intro feed
  exact h { feed with tokens := feed.tokens.push t }

theorem expect_bind {next next' : Token → Reader α} (h : ∀ t, Beside (next t) (next' t.placeless)) :
    Beside (Reader.expect >>= next) (Reader.expect >>= next') := by
  unfold Reader.expect
  simp only [bind_assoc]
  refine draw_bind ?_ fun t => ?_
  · exact refuseEnd_bind _ _
  · simpa only [pure_bind] using h t

theorem optional {reader other : Reader α} (h : Beside reader other) :
    Beside (Reader.optional reader) (Reader.optional other) := by
  intro feed
  have hfirst := h feed
  unfold Reader.optional
  cases hread : reader feed with
  | ok a after =>
    rw [hread] at hfirst
    rw [hfirst]
    rfl
  | error refusal after =>
    rw [hread] at hfirst
    rw [hfirst]
    cases refusal <;> rfl

end Beside

/-! ## Phrases -/

theorem links_beside (level : Nat) {operand : Reader Expr} (hoperand : Beside operand operand)
    (supply : Nat) (left : Expr) :
    Beside (links level operand supply left) (links level operand supply left) := by
  induction supply generalizing left with
  | zero => exact .pure left
  | succ supply ih =>
    refine .draw_bind (.pure left) fun t => ?_
    simp only [Token.kind_placeless]
    cases t.kind.operatorAt? level with
    | none => exact .handBack_bind t (.pure left)
    | some op =>
      refine .bind hoperand.optional fun right? => ?_
      cases right? with
      | none => exact .pure left
      | some right => exact ih (.binary op left right)

theorem chain_beside (supply level : Nat) {operand : Reader Expr} (h : Beside operand operand) :
    Beside (chain supply level operand) (chain supply level operand) :=
  .bind h fun left => links_beside level h supply left

theorem signs_beside (supply : Nat) (drawn : List UnaryOp) :
    Beside (signs supply drawn) (signs supply drawn) := by
  induction supply generalizing drawn with
  | zero => exact .pure drawn
  | succ supply ih =>
    refine .draw_bind (.pure drawn) fun t => ?_
    simp only [Token.kind_placeless]
    cases t.kind.unary? with
    | none => exact .handBack_bind t (.pure drawn)
    | some op => exact ih (op :: drawn)

theorem signed_beside (supply : Nat) {operand : Reader Expr} (h : Beside operand operand) :
    Beside (signed supply operand) (signed supply operand) :=
  .bind (signs_beside supply []) fun _ => .bind h fun _ => .pure _

theorem closeBracket_beside : Beside closeBracket closeBracket :=
  .expect_bind fun t => .ite Iff.rfl (.pure ()) (.refuse (.unexpectedToken t))

theorem moreArguments_beside {argument : Reader Expr} (h : Beside argument argument)
    (supply : Nat) (read : List Expr) :
    Beside (moreArguments argument supply read) (moreArguments argument supply read) := by
  induction supply generalizing read with
  | zero => exact .refuseEnd
  | succ supply ih =>
    refine .bind h fun e => .expect_bind fun t => ?_
    simp only [Token.kind_placeless]
    split
    · exact .pure _
    · exact ih (e :: read)
    · exact .refuse (.unexpectedToken t)

theorem arguments_beside (supply : Nat) {argument : Reader Expr} (h : Beside argument argument) :
    Beside (arguments supply argument) (arguments supply argument) := by
  have hmore := moreArguments_beside h supply []
  exact .draw_bind hmore fun t => .ite Iff.rfl (.pure []) (.handBack_bind t hmore)

theorem primary_beside {bracketed : Reader Expr} {arguments : Reader (List Expr)}
    (hbracketed : Beside bracketed bracketed) (harguments : Beside arguments arguments) :
    Beside (primary bracketed arguments) (primary bracketed arguments) := by
  refine .expect_bind fun t => ?_
  simp only [Token.kind_placeless, Token.lexeme_placeless, Token.value?_placeless]
  split
  · cases t.value? with
    | some value => exact .pure _
    | none => exact .refuse (.invalidNumber t)
  · refine .draw_bind (.pure _) fun following => ?_
    exact .ite Iff.rfl (.bind harguments fun es => .pure _) (.handBack_bind following (.pure _))
  · exact .bind hbracketed fun e => .bind closeBracket_beside fun _ => .pure e
  · exact .refuse (.unexpectedToken t)

theorem assignment_beside {target value : Reader Expr} (htarget : Beside target target)
    (hvalue : Beside value value) : Beside (assignment target value) (assignment target value) := by
  refine .bind htarget fun e => ?_
  cases e with
  | var name =>
    refine .draw_bind (.pure _) fun t => ?_
    simp only [Token.kind_placeless]
    split
    · exact .bind hvalue fun e => .pure _
    · exact .bind hvalue fun e => .pure _
    · exact .pure _
    · exact .pure _
    · exact .handBack_bind t (.pure _)
  | _ => exact .pure _

theorem phrase_beside (supply room : Nat) (kind : Phrase) :
    Beside (phrase supply room kind) (phrase supply room kind) := by
  induction room generalizing kind with
  | zero => exact .overflow
  | succ room ih =>
    cases kind with
    | expression => exact ih .assignment
    | assignment => exact assignment_beside (ih (.operation 0)) (ih .assignment)
    | operation level =>
      unfold phrase
      split
      · exact chain_beside supply level (ih (.operation (level + 1)))
      · exact ih .signed
    | signed => exact signed_beside supply (ih .primary)
    | primary => exact primary_beside (ih .expression) (arguments_beside supply (ih .argument))
    | argument => exact ih .expression

/-! ## Lines -/

/-- A token that begins no command is handed back. -/
theorem noCommand_beside (t : Token) : Beside (handBack t >>= fun _ => pure none)
    (handBack t.placeless >>= fun _ => pure (none : Option Line)) :=
  .handBack_bind t (.pure none)

theorem exitCommand_beside : Beside exitCommand exitCommand := by
  refine .draw_bind (.pure none) fun t => .ite Iff.rfl ?_ (noCommand_beside t)
  refine .draw_bind (.pure _) fun following => .handBack_bind following ?_
  exact .ite Iff.rfl (.pure _) (noCommand_beside t)

theorem deleteCommand_beside : Beside deleteCommand deleteCommand := by
  refine .draw_bind (.pure none) fun t => .ite Iff.rfl ?_ (noCommand_beside t)
  refine .draw_bind (noCommand_beside t) fun following => ?_
  exact .ite Iff.rfl (.pure _) (.handBack_bind following (noCommand_beside t))

theorem content_beside (supply room : Nat) :
    Beside (content supply room) (content supply room) := by
  refine .bind (.bind exitCommand_beside fun command? => ?_) fun command? => ?_
  · cases command? with
    | some command => exact .pure _
    | none => exact deleteCommand_beside
  · cases command? with
    | some command => exact .pure _
    | none => exact .bind (phrase_beside supply room .expression) fun e => .pure _

theorem endOfLine_beside : Beside endOfLine endOfLine :=
  .draw_bind (.pure ()) fun t => .ite Iff.rfl (.pure ()) (.refuse (.unexpectedToken t))

theorem soundSource_beside : Beside soundSource soundSource := by
  intro feed
  unfold soundSource
  cases hfailed : feed.failed with
  | true => simp [Feed.placeless, hfailed, placelessResult]
  | false => simp [Feed.placeless, hfailed, placelessResult]

/-- **A line is read alike with places and without them.** -/
theorem line_beside (supply room : Nat) : Beside (line supply room) (line supply room) := by
  rw [line_eq]
  refine .bind (content_beside supply room) fun l => ?_
  exact .bind endOfLine_beside fun _ => .bind soundSource_beside fun _ => .pure l

end Reader

namespace Parse

/-- What comes of reading a text, with all places blotted out. -/
def placeless (p : Parse) : Parse := { p with readings := p.readings.map Reading.placeless }

theorem ofFeed_placeless (room : Nat) (feed : Feed) :
    ofFeed room feed.placeless = (ofFeed room feed).placeless := by
  unfold ofFeed
  rw [feed.length_placeless, Reader.line_beside]
  cases Reader.line (feed.tokens.toList.length + 1) room feed with
  | ok l after => rfl
  | error refusal after =>
    cases refusal with
    | unparsable => rfl
    | tooDeep =>
      simp [ofResult, placeless, Reader.placelessResult, Feed.placeless, Reading.placeless,
        Diagnostic.placeless, ParseFault.placeless]

theorem diagnostics_placeless (p : Parse) :
    p.placeless.diagnostics = p.diagnostics.map Diagnostic.placeless := by
  unfold diagnostics placeless
  rw [Array.toList_map, List.filterMap_map, List.map_filterMap]
  exact List.filterMap_congr fun r _ => r.diagnostic?_placeless

end Parse

/-! ## Texts with the same tokens -/

/-- **Layout does not matter.**  Two texts without faults whose tokens are the same but for
their places are read as the same line, or both as none, and the same is reported of them but
for the places. -/
theorem parse_of_same_tokens (text other : String) (hsound : scanFaults text = [])
    (hsound' : scanFaults other = [])
    (hsame : (tokenize text).map Token.unplaced = (tokenize other).map Token.unplaced) :
    (parse text).line? = (parse other).line? ∧
      (parse text).diagnostics.map Diagnostic.placeless =
        (parse other).diagnostics.map Diagnostic.placeless := by
  have hfeed : ∀ {text : String}, scanFaults text = [] → (Feed.ofText text).placeless =
      Feed.ofTokens ((tokenize text).map Token.placeless) none := by
    intro text hsound
    have hnone : (Scanner.ofText text).iterate.2.1 = none := by
      rw [← head?_scanFaults, hsound]
      rfl
    rw [(tokenize_of_iterate hnone).2]
    simp [Feed.ofText, Feed.ofTokens, Feed.placeless, Lookahead.ofList, hnone]
  have hparse : (parse text).placeless = (parse other).placeless := by
    unfold parse
    rw [← Parse.ofFeed_placeless, ← Parse.ofFeed_placeless, hfeed hsound, hfeed hsound',
      map_placeless_eq hsame]
  have hline : (parse text).placeless.line? = (parse other).placeless.line? := by rw [hparse]
  refine ⟨hline, ?_⟩
  rw [← Parse.diagnostics_placeless, ← Parse.diagnostics_placeless, hparse]

/-- A bracket that is no operand is passed over wherever it stands. -/
theorem parse_of_same_tokens_tolerated :
    scanFaults "x=1_0+)" = [] ∧ scanFaults " x = 10 +\t)" = [] ∧
      (tokenize "x=1_0+)").map Token.unplaced = (tokenize " x = 10 +\t)").map Token.unplaced ∧
      (parse "x=1_0+)").line? = (parse " x = 10 +\t)").line? ∧
      (parse "x=1_0+)").diagnostics.map Diagnostic.placeless =
        (parse " x = 10 +\t)").diagnostics.map Diagnostic.placeless := by
  have hsound : scanFaults "x=1_0+)" = [] := by decide +kernel
  have hsound' : scanFaults " x = 10 +\t)" = [] := by decide +kernel
  have hsame : (tokenize "x=1_0+)").map Token.unplaced =
      (tokenize " x = 10 +\t)").map Token.unplaced := by decide +kernel
  exact ⟨hsound, hsound', hsame, parse_of_same_tokens _ _ hsound hsound' hsame⟩

end LineCalculator
