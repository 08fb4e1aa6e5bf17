import LineCalculator.Evaluation.Session
import LineCalculator.Proofs.Evaluation.Demand
import LineCalculator.Proofs.Reading.LineAccount
import LineCalculator.Proofs.Scanning.Order

/-!
# Texts in which nothing nests

A phrase can stand within a phrase of the same kind in three ways only: in brackets, as an
argument, and as the value of an assignment.  The first two take a bracket and the third a sign
that takes a value, so a text without either (`IsFlat`) is read in the room that it takes to
come from the line to an operand, however many operators it has.  Runs of operators are read in
loops and take room once for all their operands, and an increment takes no operand at all.

The expressions that are read of such a text are as flat.  A right operand is of a tighter level
than its operator, and there are seven levels; so what the expression demands of the evaluator
is bounded too, and the bound (`operationDemand`) has to do with the levels alone.

## The judgement

`Spares reader Q` says of every flat feed that the reader comes to a result as `Q` says or
refuses, but not for want of room, and that it leaves a flat feed.  A reader that is asked only
behind a bracket or a sign that takes a value is never asked here, so nothing is assumed of it.
-/

namespace LineCalculator

/-! ## What makes phrases nest -/

namespace TokenKind

/-- Whether tokens of a kind are brackets. -/
def isBracket : TokenKind → Bool
  | openBracket | closeBracket => true
  | _ => false

/-- Whether tokens of a kind take a value for the variable before them. -/
def takesValue : TokenKind → Bool
  | equals | compound _ => true
  | _ => false

/-- Whether tokens of a kind do neither. -/
def isFlat (kind : TokenKind) : Bool := !kind.isBracket && !kind.takesValue

end TokenKind

/-- A text without brackets and without signs that take a value.  It may well have increments
and decrements, which take none. -/
def IsFlat (text : String) : Prop :=
  ∀ t ∈ tokenize text, t.kind.isBracket = false ∧ t.kind.takesValue = false

instance (text : String) : Decidable (IsFlat text) := List.decidableBAll _ (tokenize text)

/-- What is to come of a feed is without brackets and signs that take a value, and want of room
has not been reported. -/
structure Feed.Flat (feed : Feed) : Prop where
  tokens : ∀ t ∈ feed.remaining, t.kind.isFlat = true
  spared : .parse .tooDeep ∉ feed.diagnostics

namespace Feed

theorem flat_ofText {text : String} (h : IsFlat text) : (ofText text).Flat where
  tokens t ht := by
    have hmem : t ∈ soundTokens text := by
      rw [soundTokens_eq]
      exact ht
    obtain ⟨hbracket, hvalue⟩ := h t ((soundTokens_prefix_tokenize text).subset hmem)
    simp [TokenKind.isFlat, hbracket, hvalue]
  spared := by simp [ofText, ofTokens, diagnostics]

theorem Flat.note {feed : Feed} (h : feed.Flat) {d : Diagnostic} (hd : d ≠ .parse .tooDeep) :
    (feed.note (.reported d)).Flat where
  tokens := h.tokens
  spared := by
    rw [diagnostics_note, List.mem_append, List.mem_singleton]
    exact not_or.2 ⟨h.spared, hd.symm⟩

end Feed

namespace Reader

variable {α β : Type}

/-! ## The judgement -/

/-- From a flat feed a reader comes to a result or refuses for a reason other than want of room,
and it leaves a flat feed. -/
def Spares (reader : Reader α) (Q : α → Prop) : Prop :=
  ∀ feed : Feed, feed.Flat →
    (∃ a after, reader feed = .ok a after ∧ after.Flat ∧ Q a) ∨
      ∃ after, reader feed = .error .unparsable after ∧ after.Flat

namespace Spares

variable {P Q : α → Prop} {R : β → Prop}

theorem pure {a : α} (h : Q a) : Spares (Pure.pure a) Q := fun feed hflat =>
  Or.inl ⟨a, feed, rfl, hflat, h⟩

theorem imp {reader : Reader α} (h : Spares reader P) (himp : ∀ a, P a → Q a) :
    Spares reader Q := by
  intro feed hflat
  rcases h feed hflat with ⟨a, after, hread, hafter, ha⟩ | hrefused
  · exact Or.inl ⟨a, after, hread, hafter, himp a ha⟩
  · exact Or.inr hrefused

theorem bind {reader : Reader α} {next : α → Reader β} (h : Spares reader P)
    (hnext : ∀ a, P a → Spares (next a) R) : Spares (reader >>= next) R := by
  intro feed hflat
  rcases h feed hflat with ⟨a, mid, hread, hmid, ha⟩ | ⟨after, hread, hafter⟩
  · rw [bind_of_ok hread]
    exact hnext a ha mid hmid
  · exact Or.inr ⟨after, bind_of_error hread, hafter⟩

theorem refuse {f : ParseFault} (hf : f ≠ .tooDeep) : Spares (Reader.refuse f) Q :=
  fun _ hflat => Or.inr ⟨_, rfl, hflat.note (by simpa using hf)⟩

theorem refuseEnd : Spares Reader.refuseEnd Q := by
  intro feed hflat
  unfold Reader.refuseEnd
  split
  · exact Or.inr ⟨feed, rfl, hflat⟩
  · exact refuse (by simp) feed hflat

theorem draw : Spares Reader.draw fun t? => ∀ t ∈ t?, t.kind.isFlat = true := by
  intro feed hflat
  rcases feed.draw_cases with ⟨t, after, hdraw, hdrew⟩ | ⟨after, hdraw⟩
  · have hcoming := hflat.tokens
    rw [hdrew.remaining, List.forall_mem_cons] at hcoming
    exact Or.inl ⟨some t, after, hdraw, ⟨hcoming.2, hdrew.quietly.diagnostics ▸ hflat.spared⟩,
      by simpa using hcoming.1⟩
  · obtain ⟨hnil, -⟩ := Feed.passes_of_draw_none hdraw
    cases hf : feed.fault with
    | none =>
      rw [draw_end hnil hf] at hdraw
      cases hdraw
      exact Or.inl ⟨none, feed, draw_end hnil hf, hflat, by simp⟩
    | some f =>
      -- what is reported is the fault
      obtain ⟨mid, hmid, hpasses, hnil', -⟩ := Feed.draw_of_fault hnil hf
      refine Or.inl ⟨none, mid, hmid, ⟨by simp [hnil'], ?_⟩, by simp⟩
      rw [hpasses.diagnostics]
      simpa using hflat.spared

theorem draw_bind {next : Option Token → Reader β} (hnone : Spares (next none) R)
    (hsome : ∀ t, t.kind.isFlat = true → Spares (next (some t)) R) :
    Spares (Reader.draw >>= next) R :=
  draw.bind fun t? ht => by
    cases t? with
    | none => exact hnone
    | some t => exact hsome t (ht t rfl)

theorem expect_bind {next : Token → Reader β}
    (hnext : ∀ t, t.kind.isFlat = true → Spares (next t) R) :
    Spares (Reader.expect >>= next) R := by
  unfold Reader.expect
  rw [bind_assoc]
  refine draw_bind ?_ fun t ht => ?_
  · exact (refuseEnd (Q := fun _ => False)).bind fun _ hfalse => hfalse.elim
  · rw [pure_bind]
    exact hnext t ht

theorem handBack_bind {t : Token} (ht : t.kind.isFlat = true) {next : Reader β}
    (hnext : Spares next R) : Spares (Reader.handBack t >>= fun _ => next) R := by
  intro feed hflat
  rw [bind_of_ok (feed.handBack_withBack t)]
  exact hnext _ ⟨List.forall_mem_cons.2 ⟨ht, hflat.tokens⟩, hflat.spared⟩

theorem optional {reader : Reader α} (h : Spares reader P) :
    Spares (Reader.optional reader) fun a? => ∀ a ∈ a?, P a := by
  intro feed hflat
  rcases h feed hflat with ⟨a, after, hread, hafter, ha⟩ | ⟨after, hread, hafter⟩
  · exact Or.inl ⟨some a, after, optional_of_ok hread, hafter, by simpa using ha⟩
  · exact Or.inl ⟨none, after, optional_of_unparsable hread, hafter, by simp⟩

end Spares

/-! ## Operations -/

/-- What an operation of a level demands at most of the evaluator, if nothing nests in it: three
units for an operand with its signs, and two for every level from this one on. -/
def operationDemand (level : Nat) : Nat := 2 * (BinaryOp.levels - level) + 3

theorem operationDemand_succ {level : Nat} (h : level < BinaryOp.levels) :
    operationDemand (level + 1) + 2 = operationDemand level := by
  unfold operationDemand
  omega

/-- A run of operators of a level demands no more than the level, as its right operands are of
the next one. -/
theorem links_spares {level : Nat} {operand : Reader Expr} (hlevel : level < BinaryOp.levels)
    (hoperand : Spares operand fun e => e.demand ≤ operationDemand (level + 1)) (supply : Nat)
    {left : Expr} (hleft : left.linkDemand left.demand ≤ operationDemand level) :
    Spares (links level operand supply left) fun e => e.demand ≤ operationDemand level := by
  have hdone : left.demand ≤ operationDemand level :=
    Nat.le_trans (Expr.le_linkDemand _ _) hleft
  induction supply generalizing left with
  | zero => exact .pure hdone
  | succ supply ih =>
    unfold links
    refine .draw_bind (.pure hdone) fun t ht => ?_
    dsimp only
    split
    · exact .handBack_bind ht (.pure hdone)
    · rename_i op _
      refine hoperand.optional.bind fun right? hright => ?_
      cases right? with
      | none => exact .pure hdone
      | some right =>
        -- the run goes on to the left, and only the right operand stands deeper
        have hlonger : (Expr.binary op left right).demand ≤ operationDemand level := by
          have hroom := operationDemand_succ hlevel
          have hdemand := hright right rfl
          rw [Expr.demand]
          omega
        exact ih hlonger hlonger

theorem chain_spares {level : Nat} {operand : Reader Expr} (hlevel : level < BinaryOp.levels)
    (hoperand : Spares operand fun e => e.demand ≤ operationDemand (level + 1)) (supply : Nat) :
    Spares (chain supply level operand) fun e => e.demand ≤ operationDemand level := by
  unfold chain
  refine hoperand.bind fun e he => links_spares hlevel hoperand supply ?_
  have hroom := operationDemand_succ hlevel
  have hlink := e.linkDemand_le_add_two e.demand
  omega

/-! ## Operands -/

theorem signs_spares (supply : Nat) (drawn : List UnaryOp) :
    Spares (signs supply drawn) fun _ => True := by
  induction supply generalizing drawn with
  | zero => exact .pure trivial
  | succ supply ih =>
    unfold signs
    refine .draw_bind (.pure trivial) fun t ht => ?_
    dsimp only
    split
    · exact ih _
    · exact .handBack_bind ht (.pure trivial)

/-- Any number of signs takes two units more than their operand. -/
theorem demand_foldl_unary_le (ops : List UnaryOp) {e : Expr} {n : Nat}
    (h : e.signDemand e.demand ≤ n) :
    (ops.foldl (fun e op => Expr.unary op e) e).demand ≤ n := by
  induction ops generalizing e with
  | nil => exact Nat.le_trans (Expr.le_signDemand _ _) h
  | cons op ops ih =>
    refine ih ?_
    rw [Expr.signDemand, Expr.demand]
    exact h

theorem signed_spares {operand : Reader Expr} {n : Nat}
    (hoperand : Spares operand fun e => e.demand ≤ n) (supply : Nat) :
    Spares (signed supply operand) fun e => e.demand ≤ n + 2 := by
  unfold signed
  refine (signs_spares supply []).bind fun drawn _ => hoperand.bind fun e he => .pure ?_
  have hsign := e.signDemand_le_add_two e.demand
  exact demand_foldl_unary_le drawn (by omega)

/-- No operand of a flat text holds another phrase. -/
theorem primary_spares (bracketed : Reader Expr) (callArguments : Reader (List Expr)) :
    Spares (primary bracketed callArguments) fun e => e.demand ≤ 1 := by
  unfold primary
  refine .expect_bind fun t ht => ?_
  split
  · split
    · exact .pure (by simp [Expr.demand])
    · exact .refuse (by simp)
  · refine .draw_bind (.pure (by simp [Expr.demand])) fun following hfollowing => ?_
    dsimp only
    split
    · rename_i hbra
      simp [hbra, TokenKind.isFlat, TokenKind.isBracket] at hfollowing
    · exact .handBack_bind hfollowing (.pure (by simp [Expr.demand]))
  · rename_i hbra
    simp [hbra, TokenKind.isFlat, TokenKind.isBracket] at ht
  · exact .refuse (by simp)

/-- To change a variable by one demands four units. -/
theorem demand_updated_literal (name : String) (op : BinaryOp) (value : Binary64) :
    (updated name op (.literal value)).demand = 4 := by
  simp [updated, Expr.demand, Expr.linkDemand]

/-- No expression of a flat text assigns anything but a variable changed by one. -/
theorem assignment_spares {target : Reader Expr} {n : Nat} (hn : 4 ≤ n)
    (htarget : Spares target fun e => e.demand ≤ n) (value : Reader Expr) :
    Spares (assignment target value) fun e => e.demand ≤ n := by
  unfold assignment
  refine htarget.bind fun e he => ?_
  split
  · refine .draw_bind (.pure he) fun t ht => ?_
    dsimp only
    split
    case h_1 hkind => simp [hkind, TokenKind.isFlat, TokenKind.takesValue] at ht
    case h_2 op hkind => simp [hkind, TokenKind.isFlat, TokenKind.takesValue] at ht
    case h_3 => exact .pure (by rwa [demand_updated_literal])
    case h_4 => exact .pure (by rwa [demand_updated_literal])
    case h_5 => exact .handBack_bind ht (.pure he)
  · exact .pure he

end Reader

/-! ## All phrases together -/

namespace Phrase

/-- The room that it takes to come from a phrase of a kind down to an operand. -/
def descent : Phrase → Nat
  | expression => BinaryOp.levels + 5
  | assignment => BinaryOp.levels + 4
  | operation level => BinaryOp.levels - level + 3
  | signed => 2
  | primary => 1
  | argument => BinaryOp.levels + 6

/-- What a phrase of a kind demands at most of the evaluator, if nothing nests in it. -/
def flatDemand : Phrase → Nat
  | expression | assignment | argument => Reader.operationDemand 0
  | operation level => Reader.operationDemand level
  | signed => 3
  | primary => 1

end Phrase

namespace Reader

/-- **Where nothing nests, a phrase is read in the room that it takes to come down to an
operand.** -/
theorem phrase_spares (supply : Nat) {room : Nat} {kind : Phrase} (h : kind.descent ≤ room) :
    Spares (phrase supply room kind) fun e => e.demand ≤ kind.flatDemand := by
  induction room generalizing kind with
  | zero => cases kind <;> simp [Phrase.descent] at h
  | succ room ih =>
    cases kind with
    | expression => exact ih (Nat.le_of_succ_le_succ h)
    | assignment =>
      have htarget : (Phrase.operation 0).descent ≤ room := Nat.le_of_succ_le_succ h
      exact assignment_spares (by decide) (ih htarget) _
    | operation level =>
      rw [phrase]
      simp only [Phrase.descent] at h
      split
      · rename_i hlevel
        refine chain_spares hlevel (ih ?_) supply
        simp only [Phrase.descent]
        omega
      · rename_i hlevel
        refine (ih ?_).imp fun e he => ?_
        · simp only [Phrase.descent]
          omega
        · simp only [Phrase.flatDemand, operationDemand] at he ⊢
          omega
    | signed =>
      have hoperand : Phrase.primary.descent ≤ room := Nat.le_of_succ_le_succ h
      exact signed_spares (ih hoperand) supply
    | primary => exact primary_spares _ _
    | argument => exact ih (Nat.le_of_succ_le_succ h)

/-! ## Lines -/

theorem exitCommand_spares : Spares exitCommand fun l? => ∀ l ∈ l?, l = .exit := by
  unfold exitCommand
  refine .draw_bind (.pure (by simp)) fun t ht => ?_
  dsimp only
  split
  · refine .draw_bind (.pure (by simp)) fun u hu => .handBack_bind hu ?_
    split
    · exact .pure (by simp)
    · exact .handBack_bind ht (.pure (by simp))
  · exact .handBack_bind ht (.pure (by simp))

theorem deleteCommand_spares :
    Spares deleteCommand fun l? => ∀ l ∈ l?, ∃ name, l = .delete name := by
  unfold deleteCommand
  refine .draw_bind (.pure (by simp)) fun t ht => ?_
  dsimp only
  split
  · refine .draw_bind (.handBack_bind ht (.pure (by simp))) fun u hu => ?_
    dsimp only
    split
    · exact .pure (by simp)
    · exact .handBack_bind hu (.handBack_bind ht (.pure (by simp)))
  · exact .handBack_bind ht (.pure (by simp))

/-- A line demands of the evaluator what its expression does. -/
def LineDemands (n : Nat) (l : Line) : Prop := ∀ e, l = .expression e → e.demand ≤ n

theorem content_spares (supply : Nat) {room : Nat} (h : Phrase.expression.descent ≤ room) :
    Spares (content supply room) (LineDemands (operationDemand 0)) := by
  unfold content command
  rw [bind_assoc]
  refine exitCommand_spares.bind fun exit? hexit => ?_
  cases exit? with
  | some l =>
    rw [pure_bind]
    exact .pure (by simp [LineDemands, hexit l rfl])
  | none =>
    refine deleteCommand_spares.bind fun delete? hdelete => ?_
    cases delete? with
    | some l =>
      obtain ⟨name, rfl⟩ := hdelete l rfl
      exact .pure (by simp [LineDemands])
    | none =>
      refine (phrase_spares supply h).bind fun e he => .pure fun e' he' => ?_
      cases he'
      exact he

theorem endOfLine_spares : Spares endOfLine fun _ => True := by
  unfold endOfLine
  refine .draw_bind (.pure trivial) fun t _ => ?_
  dsimp only
  split
  · exact .pure trivial
  · exact .refuse (by simp)

theorem soundSource_spares : Spares soundSource fun _ => True := by
  intro feed hflat
  unfold soundSource
  split
  · exact Or.inr ⟨feed, rfl, hflat⟩
  · exact Or.inl ⟨(), feed, rfl, hflat, trivial⟩

theorem line_spares (supply : Nat) {room : Nat} (h : Phrase.expression.descent ≤ room) :
    Spares (line supply room) (LineDemands (operationDemand 0)) := by
  rw [line_eq]
  refine (content_spares supply h).bind fun l hl => ?_
  exact endOfLine_spares.bind fun _ _ => soundSource_spares.bind fun _ _ => .pure hl

end Reader

/-! ## Flat texts -/

/-- **There is room to read every flat text**, and what is read of it demands no more of the
evaluator than what the levels of operators take. -/
theorem IsFlat.parse_spares {text : String} (h : IsFlat text) :
    .parse .tooDeep ∉ (parse text).diagnostics ∧
      ∀ l, (parse text).line? = some l → Reader.LineDemands (Reader.operationDemand 0) l := by
  have hroom : Phrase.expression.descent ≤ Parse.room := by decide
  have hline := Reader.line_spares ((Feed.ofText text).remaining.length + 1) hroom _
    (Feed.flat_ofText h)
  rw [parse_eq]
  rcases hline with ⟨l, after, hread, hflat, hdemands⟩ | ⟨after, hread, hflat⟩
  · rw [hread]
    refine ⟨hflat.spared, fun l' hl' => ?_⟩
    cases hl'
    exact hdemands
  · rw [hread]
    exact ⟨hflat.spared, fun l hl => nomatch hl⟩

/-- There is room to run what is read of a flat text, in every scope. -/
theorem IsFlat.runLine_spares {text : String} (h : IsFlat text) {l : Line}
    (hl : (parse text).line? = some l) (s : Scope) :
    (Session.runLine s l).answer ≠ .failed (.evaluation (.error .tooDeep)) := by
  have hdemands := h.parse_spares.2 l hl
  cases l with
  | exit => simp [Session.runLine]
  | delete name =>
    simp only [Session.runLine, Scope.runDelete]
    split <;> simp [Session.answerOf]
  | expression e =>
    have hle : Reader.operationDemand 0 ≤ Run.room := by decide
    have hrun := s.run_ne_tooDeep (Nat.le_trans (hdemands e rfl) hle)
    simp only [Session.runLine, Session.answerOf]
    split
    · simp
    · rename_i f hf
      simpa [hf] using hrun

end LineCalculator
