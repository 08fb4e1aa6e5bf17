import LineCalculator.Proofs.Reading.Abreast
import LineCalculator.Proofs.Reading.Completeness
import LineCalculator.Proofs.Reading.Diagnostics
import LineCalculator.Proofs.Reading.Tolerance

/-!
# Lines beside a next line

Every reader of a line is followed beside one with a next line before it.  Readers that
only look for more go on behind the end as if the phrase were complete (`Rests`), and they
leave the closing brackets of the next line to the phrase around them (`Completes 0`); a
reader that needs a bracket takes one of them (`Completes 1`).

A command is looked for in front of the first newline only (`StaysOnLine`), so it never
comes to the next line.  The end of a line does not tell the end of the text from a
newline either.  What remains is the expression, and `line_fares` says in three cases what
becomes of a line.
-/

namespace LineCalculator

namespace Reader

variable {α : Type}

/-! ## Operations -/

theorem rests_links (level : Nat) (operand : Reader Expr) (bound : Nat) (left : Expr) :
    Rests (links level operand bound left) := by
  cases bound with
  | zero => exact .pure left
  | succ bound => exact .draw_bind (.pure left)

theorem completes_links (level : Nat) (operand : Reader Expr) (bound : Nat) (left : Expr) :
    Completes 0 (links level operand bound left) := by
  cases bound with
  | zero => exact .pure left
  | succ bound =>
    refine .peek (a := left) rfl fun ket hket => ?_
    simp only [hket, TokenKind.operatorAt?]

theorem links_abreast {level supply : Nat} {operand : Reader Expr} {operand' : Nat → Reader Expr}
    (hoperand : Abreast True supply operand operand') (bound : Nat) (hbound : bound ≤ supply)
    (left : Expr) :
    Abreast True bound (links level operand bound left) fun excess =>
      links level (operand' excess) (excess + bound) left := by
  induction bound generalizing left with
  | zero => exact .zero
  | succ bound ih =>
    refine Abreast.draw_bind .pure (fun excess t ht => ?_) fun t => ?_
    · simp only [ht, TokenKind.operatorAt?]
    · dsimp only
      cases hop : t.kind.operatorAt? level with
      | none => exact .handBack_bind .pure
      | some op =>
        have hle := Nat.le_of_succ_le hbound
        refine .take ((hoperand.mono hle).optional.bind (fun right? => ?_) fun _ => ?_)
        · cases right? with
          | none => exact .pure
          | some right => exact ih hle _
        · refine ⟨trivial, fun right? => ?_, 0, fun excess right? => ?_⟩
          · cases right? with
            | none => exact .pure left
            | some right => exact rests_links _ _ _ _
          · cases right? with
            | none => exact .pure left
            | some right => exact completes_links _ _ _ _

theorem chain_abreast {level supply : Nat} {operand : Reader Expr} {operand' : Nat → Reader Expr}
    (hoperand : Abreast True supply operand operand') :
    Abreast True supply (chain supply level operand) fun excess =>
      chain (excess + supply) level (operand' excess) := by
  refine hoperand.bind (fun left => links_abreast hoperand supply (Nat.le_refl _) left) fun _ => ?_
  exact ⟨trivial, rests_links level operand supply, 0, fun excess => completes_links _ _ _⟩

theorem signs_abreast (supply : Nat) (drawn : List UnaryOp) :
    Abreast False supply (signs supply drawn) fun excess => signs (excess + supply) drawn := by
  induction supply generalizing drawn with
  | zero => exact .zero
  | succ supply ih =>
    refine Abreast.draw_bind .pure (fun excess t ht => ?_) fun t => ?_
    · simp only [ht, TokenKind.unary?]
    · dsimp only
      cases t.kind.unary? with
      | some op => exact .take (ih (op :: drawn))
      | none => exact .handBack_bind .pure

theorem signed_abreast {supply : Nat} {operand : Reader Expr} {operand' : Nat → Reader Expr}
    (hoperand : Abreast True supply operand operand') :
    Abreast True supply (signed supply operand) fun excess =>
      signed (excess + supply) (operand' excess) :=
  (signs_abreast supply []).bind (fun _ => hoperand.bind_pure) False.elim

/-! ## Operands -/

theorem rests_closeBracket : Rests closeBracket := .expect_bind _

theorem completes_closeBracket : Completes 1 closeBracket :=
  .expect_bind (a := ()) fun _ hket => if_pos hket

theorem closeBracket_abreast (supply : Nat) :
    Abreast True supply closeBracket fun _ => closeBracket := by
  cases supply with
  | zero => exact .zero
  | succ supply =>
    refine Abreast.expect_bind trivial (fun excess t ht => ?_) fun t => ?_
    · simp only [ht, reduceCtorEq, if_false]
    · split
      case isTrue => exact .pure
      case isFalse => exact .refuse (by simp)

theorem moreArguments_abreast {supply : Nat} {argument : Reader Expr}
    {argument' : Nat → Reader Expr} (hargument : Abreast True supply argument argument')
    (bound : Nat) (hbound : bound ≤ supply) (read : List Expr) :
    Abreast True bound (moreArguments argument bound read) fun excess =>
      moreArguments (argument' excess) (excess + bound) read := by
  induction bound generalizing read with
  | zero => exact .zero
  | succ bound ih =>
    refine (hargument.mono hbound).bind (fun e => ?_) fun _ => ?_
    · refine Abreast.expect_bind trivial (fun excess t ht => ?_) fun t => ?_
      · simp only [ht]
      · cases t.kind with
        | closeBracket => exact .pure
        | comma => exact ih (Nat.le_of_succ_le hbound) _
        | _ => exact .refuse (by simp)
    · refine ⟨trivial, fun e => .expect_bind _, 1, fun excess e => ?_⟩
      exact .expect_bind (a := (e :: read).reverse) fun ket hket => by simp only [hket]

theorem arguments_abreast {supply : Nat} {argument : Reader Expr} {argument' : Nat → Reader Expr}
    (hargument : Abreast True supply argument argument') :
    Abreast True supply (arguments supply argument) fun excess =>
      arguments (excess + supply) (argument' excess) := by
  have hmore := moreArguments_abreast hargument supply (Nat.le_refl _) []
  cases supply with
  | zero => exact .zero
  | succ supply =>
    refine Abreast.draw_bind hmore (fun excess t ht => ?_) fun t => ?_
    · simp only [ht, reduceCtorEq, if_false]
    · dsimp only
      split
      case isTrue => exact .take .pure
      case isFalse => exact .handBack_bind hmore

theorem primary_abreast {supply : Nat} {bracketed : Reader Expr} {bracketed' : Nat → Reader Expr}
    {arguments : Reader (List Expr)} {arguments' : Nat → Reader (List Expr)}
    (hbracketed : Abreast True supply bracketed bracketed')
    (harguments : Abreast True supply arguments arguments') :
    Abreast True supply (primary bracketed arguments) fun excess =>
      primary (bracketed' excess) (arguments' excess) := by
  cases supply with
  | zero => exact .zero
  | succ supply =>
    refine Abreast.expect_bind trivial (fun excess t ht => ?_) fun t => ?_
    · simp only [ht]
    · cases t.kind with
      | number =>
        dsimp only
        cases t.value? with
        | some value => exact .pure
        | none => exact .refuse (by simp)
      | identifier =>
        cases supply with
        | zero => exact .zero
        | succ supply =>
          refine Abreast.draw_bind .pure (fun excess u hu => ?_) fun bra => ?_
          · simp only [hu, reduceCtorEq, if_false]
          · dsimp only
            split
            case isTrue => exact .take ((harguments.mono (by omega)).bind_pure)
            case isFalse => exact .handBack_bind .pure
      | openBracket =>
        refine (hbracketed.mono (Nat.le_succ _)).bind
          (fun e => (closeBracket_abreast supply).bind_pure (f := fun _ => e)) fun _ => ?_
        exact ⟨trivial, fun e => rests_closeBracket.bind_pure, 1, fun _ e =>
          completes_closeBracket.bind_pure⟩
      | _ => exact .refuse (by simp)

/-! ## Assignments -/

theorem assignment_abreast {supply : Nat} {target value : Reader Expr}
    {target' value' : Nat → Reader Expr} (htarget : Abreast True supply target target')
    (hvalue : Abreast True supply value value') :
    Abreast True supply (assignment target value) fun excess =>
      assignment (target' excess) (value' excess) := by
  cases supply with
  | zero => exact .zero
  | succ supply =>
    have hvalue' := hvalue.mono (Nat.le_succ supply)
    refine htarget.bind (fun e => ?_) fun _ => ?_
    · cases e with
      | var x =>
        refine Abreast.draw_bind .pure (fun excess t ht => ?_) fun t => ?_
        · simp only [ht]
        · dsimp only
          cases t.kind with
          | equals => exact .take hvalue'.bind_pure
          | compound op => exact .take hvalue'.bind_pure
          | increment => exact .take .pure
          | decrement => exact .take .pure
          | _ => exact .handBack_bind .pure
      | _ => exact .pure
    · refine ⟨trivial, fun e => ?_, 0, fun excess e => ?_⟩
      · cases e with
        | var x => exact .draw_bind (.pure _)
        | _ => exact .pure _
      · cases e with
        | var x =>
          refine .peek (a := .var x) rfl fun ket hket => ?_
          simp only [hket]
        | _ => exact .pure _

/-! ## All phrases together -/

theorem phrase_abreast (supply room : Nat) (kind : Phrase) :
    Abreast True supply (phrase supply room kind) fun excess =>
      phrase (excess + supply) room kind := by
  induction room generalizing kind with
  | zero => exact .overflow
  | succ room ih =>
    cases kind with
    | expression => exact ih .assignment
    | assignment => exact assignment_abreast (ih (.operation 0)) (ih .assignment)
    | operation level =>
      unfold phrase
      split
      case isTrue => exact chain_abreast (ih (.operation (level + 1)))
      case isFalse => exact ih .signed
    | signed => exact signed_abreast (ih .primary)
    | primary => exact primary_abreast (ih .expression) (arguments_abreast (ih .argument))
    | argument => exact ih .expression

/-! ## Commands -/

/-- A reader that looks no further than to the end of a line reads the same whatever stands
behind it. -/
def StaysOnLine (reader : Reader α) : Prop :=
  ∀ ts : List Token, ∃ a rest, rest.length ≤ ts.length ∧
    ∀ (feed : Feed) (tail : List Token), feed.remaining = ts ++ tail →
      (tail = [] → feed.fault = none) → Feed.AtEnd tail →
        Yields reader feed True a (rest ++ tail)

theorem StaysOnLine.abreast {reader : Reader α} (h : StaysOnLine reader) (may : Prop)
    (supply : Nat) : Abreast may supply reader fun _ => reader := by
  intro feed ts hfeed _
  obtain ⟨a, rest, hlength, hyields⟩ := h ts
  have hremaining : feed.remaining = ts ++ [] := by rw [hfeed.remaining, List.append_nil]
  obtain ⟨after, hread, hquiet, hafter⟩ :=
    (hyields feed [] hremaining (fun _ => hfeed.fault) (by simp [Feed.AtEnd])).ok trivial
  rw [List.append_nil] at hafter
  rw [hread]
  refine .alike (hquiet.holds hfeed hafter) hquiet.ends hlength fun excess next other hother => ?_
  obtain ⟨after', hread', hquiet', hafter'⟩ :=
    (hyields other next.tokens hother.holds.remaining
      (fun hnil => absurd hnil (List.cons_ne_nil _ _))
      (by simp [Feed.AtEnd, NextLine.tokens, next.kind])).ok trivial
  exact ⟨after', hread', hquiet'.holds hother.holds hafter'⟩

theorem exitCommand_staysOnLine : StaysOnLine exitCommand := by
  intro ts
  cases ts with
  | nil =>
    refine ⟨none, [], Nat.le_refl _, fun feed tail hfeed hfault htail => ?_⟩
    have hreads : Reads exitCommand (feed.remaining.length + 1) True [] none Feed.AtEnd :=
      .peek_end rfl fun t rest ht => by simp [isWord, ht t rfl]
    exact hreads feed tail hfeed hfault htail (Nat.lt_succ_self _)
  | cons t ts =>
    -- with no token behind the word, what stands behind the line decides: it ends the line
    by_cases hexit : isWord exitWords t = true ∧ Feed.AtEnd ts
    · refine ⟨some .exit, ts, Nat.le_succ _, fun feed tail hfeed hfault htail => ?_⟩
      refine reads_exitCommand hexit.1 (feed.remaining.length + 1) feed (ts ++ tail) hfeed
        (fun hnil => hfault (List.append_eq_nil_iff.1 hnil).2) ?_ (Nat.lt_succ_self _)
      cases ts with
      | nil => exact htail
      | cons u ts => exact hexit.2
    · refine ⟨none, t :: ts, Nat.le_refl _, fun feed tail hfeed hfault htail => ?_⟩
      refine yields_exitCommand_none hfeed fun hword => ?_
      cases ts with
      | nil => exact absurd ⟨hword, by simp [Feed.AtEnd]⟩ hexit
      | cons u ts =>
        refine ⟨u, ts ++ tail, rfl, fun hu => hexit ⟨hword, ?_⟩⟩
        simpa [Feed.AtEnd] using hu

theorem deleteCommand_staysOnLine : StaysOnLine deleteCommand := by
  intro ts
  cases ts with
  | nil =>
    refine ⟨none, [], Nat.le_refl _, fun feed tail hfeed hfault htail => ?_⟩
    have hreads : Reads deleteCommand (feed.remaining.length + 1) True [] none Feed.AtEnd :=
      .peek_end rfl fun t rest ht => by simp [isWord, ht t rfl]
    exact hreads feed tail hfeed hfault htail (Nat.lt_succ_self _)
  | cons t ts =>
    by_cases hdelete : isWord deleteWords t = true ∧ ∃ name ∈ ts.head?, name.kind = .identifier
    · obtain ⟨hword, name, hname, hkind⟩ := hdelete
      obtain ⟨rest, rfl⟩ := List.head?_eq_some_iff.1 hname
      refine ⟨some (.delete name.lexeme), rest, ?_, fun feed tail hfeed hfault _ => ?_⟩
      · rw [List.length_cons, List.length_cons]
        omega
      exact reads_deleteCommand hword hkind (feed.remaining.length + 1) (fun _ => True) feed
        (rest ++ tail) hfeed (fun hnil => hfault (List.append_eq_nil_iff.1 hnil).2) trivial
        (Nat.lt_succ_self _)
    · refine ⟨none, t :: ts, Nat.le_refl _, fun feed tail hfeed hfault htail => ?_⟩
      refine yields_deleteCommand_none hfeed
        (fun hnil => hfault (List.append_eq_nil_iff.1 hnil).2) fun hword u hu hkind => ?_
      cases ts with
      | nil => simp [htail u hu] at hkind
      | cons v ts => exact hdelete ⟨hword, u, hu, hkind⟩

theorem command_staysOnLine : StaysOnLine command := by
  intro ts
  obtain ⟨exit?, rest, hlength, hexit⟩ := exitCommand_staysOnLine ts
  cases exit? with
  | some l =>
    exact ⟨some l, rest, hlength, fun feed tail hfeed hfault htail =>
      (hexit feed tail hfeed hfault htail).bind_of_true fun after _ hafter =>
        .of_ok rfl (.refl after) hafter⟩
  | none =>
    obtain ⟨delete?, rest', hlength', hdelete⟩ := deleteCommand_staysOnLine rest
    refine ⟨delete?, rest', Nat.le_trans hlength' hlength, fun feed tail hfeed hfault htail => ?_⟩
    refine (hexit feed tail hfeed hfault htail).bind_of_true fun after hquiet hafter => ?_
    exact hdelete after tail hafter (fun hnil => hquiet.fault.trans (hfault hnil)) htail

/-! ## What a line says -/

theorem content_abreast (supply room : Nat) :
    Abreast True supply (content supply room) fun excess => content (excess + supply) room := by
  refine (command_staysOnLine.abreast False supply).bind (fun command? => ?_) False.elim
  cases command? with
  | some l => exact .pure
  | none => exact (phrase_abreast supply room .expression).bind_pure

/-! ## The end of a line -/

theorem ending_spent (l : Line) {feed : Feed} (h : feed.Holds [] none) :
    ending l feed = .ok l feed := by
  have hread : endOfLine feed = .ok () feed := bind_of_ok (draw_spent h)
  exact (bind_of_ok hread).trans (bind_of_ok (soundSource_of_sound h.failed))

theorem ending_newline (l : Line) {feed : Feed} {t : Token} {rest : List Token}
    {fault : Option ScanFault} (h : feed.Holds (t :: rest) fault) (ht : t.kind = .newline) :
    ∃ after, ending l feed = .ok l after ∧ after.ends = feed.ends := by
  obtain ⟨after, hdraw, hafter, hends⟩ := draw_holds h
  have hread : endOfLine feed = .ok () after := by
    unfold endOfLine
    rw [bind_of_ok hdraw]
    simp only [ht, if_true]
    rfl
  exact ⟨after, (bind_of_ok hread).trans (bind_of_ok (soundSource_of_sound hafter.failed)), hends⟩

theorem ending_refused (l : Line) {feed : Feed} {t : Token} {rest : List Token}
    {fault : Option ScanFault} (h : feed.Holds (t :: rest) fault) (ht : t.kind ≠ .newline) :
    ∃ after, ending l feed = .error .unparsable after ∧ after.ends = feed.ends := by
  obtain ⟨mid, hdraw, -, hends⟩ := draw_holds h
  have hread : endOfLine feed =
      .error .unparsable (mid.note (.reported (.parse (.unexpectedToken t)))) := by
    unfold endOfLine
    rw [bind_of_ok hdraw]
    simp only [ht, if_false]
    rfl
  refine ⟨_, bind_of_error hread, ?_⟩
  rw [Feed.ends_note, hends]
  simp

end Reader

/-! ## Lines -/

/-- How often reading a text has reported the end of input. -/
def Parse.ends (p : Parse) : Nat := p.diagnostics.count (.parse .endOfInput)

namespace Reader

theorem ends_ofResult_error (refusal : Refusal) (feed : Feed) :
    (Parse.ofResult (.error refusal feed)).ends = feed.ends := by
  cases refusal with
  | unparsable => rfl
  | tooDeep =>
    unfold Parse.ends
    rw [Parse.diagnostics_ofResult_tooDeep, List.count_append]
    simp [Feed.ends]

theorem line?_ofResult_error (refusal : Refusal) (feed : Feed) :
    (Parse.ofResult (.error refusal feed)).line? = none := by
  cases refusal with
  | unparsable => rfl
  | tooDeep => rfl

/-- How a line fares beside one with a next line behind it: what is read is the same; or
the end of input has been reported once and there is no line either way; or there is one
if behind the newline stand as many closing brackets as needed and no others. -/
inductive LineFares (supply room : Nat) (feed : Feed) (ts : List Token) (p : Parse) : Prop
  | alike (ends : p.ends = feed.ends)
      (same : ∀ excess next (other : Feed), other.Continues ts next (excess + supply) →
        (Parse.ofResult (line (excess + supply) room other)).line? = p.line?)
  | cut (ends : p.ends = feed.ends + 1) (refused : p.line? = none)
      (same : ∀ excess next (other : Feed), other.Continues ts next (excess + supply) →
        (Parse.ofResult (line (excess + supply) room other)).line? = none)
  | completed (ends : feed.ends + 1 ≤ p.ends) (refused : p.line? = none → feed.ends + 2 ≤ p.ends)
      (count : Nat)
      (completes : ∀ excess next (other : Feed), other.Continues ts next (excess + supply) →
        next.fault = none → ∀ n, Brackets (n + count) next.later →
          ((Parse.ofResult (line (excess + supply) room other)).line? = none ↔ n ≠ 0))

theorem line_fares (supply room : Nat) {feed : Feed} {ts : List Token} (hfeed : feed.Holds ts none)
    (hlength : ts.length < supply) :
    LineFares supply room feed ts (Parse.ofResult (line supply room feed)) := by
  have hfares := content_abreast supply room feed ts hfeed hlength
  simp only [line_eq]
  generalize hread : content supply room feed = result at hfares
  cases hfares with
  | @alike l mid rest holds ends length same =>
    rw [bind_of_ok hread]
    cases rest with
    | nil =>
      rw [ending_spent l holds]
      refine .alike ends fun excess next other hother => ?_
      obtain ⟨other', hread', hother'⟩ := same excess next other hother
      obtain ⟨after, hend, -⟩ := ending_newline l hother' next.kind
      rw [line_eq, bind_of_ok hread', hend]
      rfl
    | cons t rest =>
      by_cases ht : t.kind = .newline
      · obtain ⟨after, hend, hends⟩ := ending_newline l holds ht
        rw [hend]
        refine .alike (hends.trans ends) fun excess next other hother => ?_
        obtain ⟨other', hread', hother'⟩ := same excess next other hother
        obtain ⟨after', hend', -⟩ := ending_newline l hother' ht
        rw [line_eq, bind_of_ok hread', hend']
        rfl
      · obtain ⟨after, hend, hends⟩ := ending_refused l holds ht
        rw [hend]
        refine .alike (hends.trans ends) fun excess next other hother => ?_
        obtain ⟨other', hread', hother'⟩ := same excess next other hother
        obtain ⟨after', hend', -⟩ := ending_refused l hother' ht
        rw [line_eq, bind_of_ok hread', hend']
        rfl
  | @refused refusal mid rest holds ends length same =>
    rw [bind_of_error hread]
    refine .alike ((ends_ofResult_error refusal mid).trans ends)
      fun excess next other hother => ?_
    obtain ⟨other', hread', -⟩ := same excess next other hother
    rw [line_eq, bind_of_error hread', line?_ofResult_error, line?_ofResult_error]
  | @cut mid hmay holds ends same =>
    rw [bind_of_error hread]
    refine .cut ((ends_ofResult_error .unparsable mid).trans ends) rfl
      fun excess next other hother => ?_
    obtain ⟨other', hread', -⟩ := same excess next other hother
    rw [line_eq, bind_of_error hread', line?_ofResult_error]
  | completed hmay misses count completes =>
    have hcompletes : ∀ excess next (other : Feed), other.Continues ts next (excess + supply) →
        next.fault = none → ∀ n, Brackets (n + count) next.later →
          ((Parse.ofResult (line (excess + supply) room other)).line? = none ↔ n ≠ 0) := by
      intro excess next other hother hfault n hlater
      obtain ⟨l, other', rest, hread', hother', hrest⟩ :=
        completes excess next other hother hfault n hlater
      rw [line_eq, bind_of_ok hread']
      -- a bracket too many stands where the line should end
      cases n with
      | zero =>
        obtain rfl := hrest.eq_nil
        rw [ending_spent l hother']
        simp [Parse.ofResult]
      | succ n =>
        obtain ⟨ket, rest, rfl, hket, -⟩ := hrest.exists_cons
        obtain ⟨after, hend, -⟩ := ending_refused l hother' (by simp [hket])
        rw [hend, line?_ofResult_error]
        simp
    cases misses with
    | @ok l mid holds ends =>
      rw [bind_of_ok hread, ending_spent l holds]
      exact .completed ends (fun hnone => by simp [Parse.ofResult] at hnone) count hcompletes
    | @error mid holds ends =>
      rw [bind_of_error hread]
      exact .completed (Nat.le_of_succ_le ends) (fun _ => ends) count hcompletes

end Reader

end LineCalculator
