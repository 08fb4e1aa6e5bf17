import LineCalculator.Proofs.Reading.Soundness
import LineCalculator.Proofs.Reading.Thinning

/-!
# What is read is in the grammar, but for what was dropped

A phrase may be read although the right operand of an operator was missing.  Then the
operator and whatever was taken in search of the operand are dropped, and the tokens
that remain derive the phrase.

## The judgement

`Lenient supply reader P` says of every run of `reader` on fewer than `supply` tokens
what its account is like.  If it yields `a`, the tokens it has taken are thinned to some
of which `P` holds with `a`; if it finds no phrase, the last token taken is cited or the
end of input is reported.  Once a fault has been met nothing more is claimed than that
there is an account, because then nothing will come of the line.

`LenientAfter t supply reader P` is the same for a reader that goes on from a token `t`
that has just been drawn, with `t` counted among the tokens it takes.  It is needed for
what cannot be said of a reader alone: that the token it cites was taken last, and that
a token it hands back was not taken.

## Where tokens are dropped

There is one rule that drops tokens, `LenientAfter.optional_bind`, and the only reader
that needs it is the one that goes on with a run of operators.  All other readers put
together what their parts have kept.
-/

namespace LineCalculator

open Grammar

namespace Reader

variable {α β : Type}

/-- What has come of a run of a reader from a feed. -/
inductive Comes (P : List Token → α → Prop) (feed : Feed) : EStateM.Result Refusal Feed α → Prop
  | ok {a : α} {after : Feed} {taken : List Token} {reports : List Diagnostic}
      (passes : feed.Passes after taken reports)
      (kept : after.failed = false → ∃ kept, Thins reports taken kept ∧ P kept a) :
      Comes P feed (.ok a after)
  | unparsable {after : Feed} {taken : List Token} {reports : List Diagnostic}
      (passes : feed.Passes after taken reports)
      (reported : after.failed = false → EndsReported reports taken) :
      Comes P feed (.error .unparsable after)
  | tooDeep {after : Feed} {taken : List Token} {reports : List Diagnostic}
      (passes : feed.Passes after taken reports) : Comes P feed (.error .tooDeep after)

/-- A run goes on from what has been taken before it. -/
theorem Comes.after {R : List Token → Prop} {Q P : List Token → α → Prop} {feed mid : Feed}
    {taken : List Token} {reports : List Diagnostic} {result : EStateM.Result Refusal Feed α}
    (h : Comes Q mid result) (hpasses : feed.Passes mid taken reports)
    (hkept : mid.failed = false → ∃ kept, Thins reports taken kept ∧ R kept)
    (himp : ∀ ks ks' a, R ks → Q ks' a → P (ks ++ ks') a) : Comes P feed result := by
  cases h with
  | ok passes kept =>
    refine .ok (hpasses.trans passes) fun hsound => ?_
    obtain ⟨ks, hthins, hks⟩ := hkept (passes.sound hsound)
    obtain ⟨ks', hthins', hks'⟩ := kept hsound
    exact ⟨ks ++ ks', hthins.append hthins' (hpasses.taken_of_endOfInput passes),
      himp ks ks' _ hks hks'⟩
  | unparsable passes reported =>
    exact .unparsable (hpasses.trans passes) fun hsound => (reported hsound).append_left _ _
  | tooDeep passes => exact .tooDeep (hpasses.trans passes)

/-- What a reader takes is accounted for, and but for dropped segments it is as `P`
says. -/
def Lenient (supply : Nat) (reader : Reader α) (P : List Token → α → Prop) : Prop :=
  ∀ feed : Feed, feed.remaining.length < supply → Comes P feed (reader feed)

/-- What a reader takes together with a token that has just been drawn is accounted for,
and but for dropped segments it is as `P` says. -/
def LenientAfter (t : Token) (supply : Nat) (reader : Reader α) (P : List Token → α → Prop) :
    Prop :=
  ∀ feed mid : Feed, feed.Drew t mid → mid.remaining.length < supply → Comes P feed (reader mid)

/-! ## Rules -/

namespace Lenient

variable {supply : Nat} {P : List Token → α → Prop} {Q : List Token → β → Prop}

/-- No feed has less than no tokens. -/
theorem zero {reader : Reader α} : Lenient 0 reader P := fun _ hlength =>
  absurd hlength (Nat.not_lt_zero _)

theorem mono {reader : Reader α} {supply' : Nat} (h : Lenient supply reader P)
    (hsupply : supply' ≤ supply) : Lenient supply' reader P := fun feed hlength =>
  h feed (Nat.lt_of_lt_of_le hlength hsupply)

theorem imp {reader : Reader α} {P₂ : List Token → α → Prop} (h : Lenient supply reader P)
    (himp : ∀ ks a, P ks a → P₂ ks a) : Lenient supply reader P₂ := fun feed hlength =>
  (h feed hlength).after (R := fun ks => ks = []) (.refl feed) (fun _ => ⟨[], .nil, rfl⟩)
    fun ks ks' a hks hks' => by
      subst hks
      exact himp ks' a hks'

theorem pure {a : α} (h : P [] a) : Lenient supply (Pure.pure a) P := fun feed _ =>
  .ok (.refl feed) fun _ => ⟨[], .nil, h⟩

theorem overflow : Lenient supply Reader.overflow P := fun feed _ => .tooDeep (.refl feed)

/-- What comes after a reader has to do justice to whatever that reader has kept. -/
theorem bind {reader : Reader α} {next : α → Reader β} (hreader : Lenient supply reader P)
    (hnext : ∀ a, Lenient supply (next a) fun ks' b => ∀ ks, P ks a → Q (ks ++ ks') b) :
    Lenient supply (reader >>= next) Q := by
  intro feed hlength
  have hrun := hreader feed hlength
  cases hread : reader feed with
  | ok a mid =>
    rw [bind_of_ok hread]
    rw [hread] at hrun
    cases hrun with
    | ok passes kept =>
      have hmid := Nat.lt_of_le_of_lt passes.length_le hlength
      exact (hnext a mid hmid).after passes kept fun ks ks' b hks hks' => hks' ks hks
  | error refusal mid =>
    rw [bind_of_error hread]
    rw [hread] at hrun
    cases hrun with
    | unparsable passes reported => exact .unparsable passes reported
    | tooDeep passes => exact .tooDeep passes

theorem draw_bind {next : Option Token → Reader β} (hnone : Lenient (supply + 1) (next none) Q)
    (hsome : ∀ t, LenientAfter t supply (next (some t)) Q) :
    Lenient (supply + 1) (Reader.draw >>= next) Q := by
  intro feed hlength
  rcases feed.draw_cases with ⟨t, mid, hdraw, hdrew⟩ | ⟨mid, hdraw⟩
  · rw [bind_of_ok hdraw]
    rw [hdrew.remaining, List.length_cons] at hlength
    exact hsome t feed mid hdrew (Nat.lt_of_succ_lt_succ hlength)
  · rw [bind_of_ok hdraw]
    obtain ⟨-, reports, hpasses, hnil, -, hquiet⟩ := Feed.passes_of_draw_none hdraw
    refine (hnone mid (by simp [hnil])).after (R := fun ks => ks = []) hpasses
      (fun hsound => ?_) fun ks ks' b hks hks' => ?_
    · rw [(hquiet hsound).2]
      exact ⟨[], .nil, rfl⟩
    · subst hks
      exact hks'

theorem expect_bind {next : Token → Reader β} (hnext : ∀ t, LenientAfter t supply (next t) Q) :
    Lenient (supply + 1) (Reader.expect >>= next) Q := by
  intro feed hlength
  unfold Reader.expect
  rw [bind_assoc]
  rcases feed.draw_cases with ⟨t, mid, hdraw, hdrew⟩ | ⟨mid, hdraw⟩
  · rw [bind_of_ok hdraw, pure_bind]
    rw [hdrew.remaining, List.length_cons] at hlength
    exact hnext t feed mid hdrew (Nat.lt_of_succ_lt_succ hlength)
  · rw [bind_of_ok hdraw]
    obtain ⟨-, reports, hpasses, hnil, hfault, hquiet⟩ := Feed.passes_of_draw_none hdraw
    dsimp only
    cases hfailed : mid.failed with
    | true =>
      -- the fault has been reported, and so nothing is
      have hend : Reader.refuseEnd mid = .error (α := Token) .unparsable mid := if_pos hfailed
      rw [bind_of_error hend]
      exact .unparsable hpasses fun hsound => absurd hfailed (by simp [hsound])
    | false =>
      obtain ⟨rfl, rfl⟩ := hquiet hfailed
      have hend : Reader.refuseEnd mid =
          .error (α := Token) .unparsable (mid.note (.reported (.parse .endOfInput))) :=
        if_neg (by simp [hfailed])
      rw [bind_of_error hend]
      exact .unparsable (Feed.passes_note_endOfInput hnil hfault hfailed) fun _ =>
        Or.inr List.mem_cons_self

end Lenient

namespace LenientAfter

variable {supply : Nat} {t : Token} {P : List Token → α → Prop} {Q : List Token → β → Prop}

/-- A token that has been drawn is taken if it is not handed back. -/
theorem take {reader : Reader α} (h : Lenient supply reader fun ks a => P (t :: ks) a) :
    LenientAfter t supply reader P := fun feed mid hdrew hlength =>
  (h mid hlength).after (R := fun ks => ks = [t]) hdrew.passes (fun _ => ⟨[t], .single t, rfl⟩)
    fun ks ks' a hks hks' => by
      subst hks
      exact hks'

theorem pure {a : α} (h : P [t] a) : LenientAfter t supply (Pure.pure a) P := take (.pure h)

theorem handBack_bind {next : Reader β} (hnext : Lenient (supply + 1) next Q) :
    LenientAfter t supply (Reader.handBack t >>= fun _ => next) Q := by
  intro feed mid hdrew hlength
  rw [bind_of_ok (mid.handBack_withBack t)]
  refine (hnext (mid.withBack t) ?_).after (R := fun ks => ks = []) hdrew.passes_withBack
    (fun _ => ⟨[], .nil, rfl⟩) fun ks ks' b hks hks' => ?_
  · rw [Feed.remaining_withBack, List.length_cons]
    exact Nat.succ_lt_succ hlength
  · subst hks
    exact hks'

/-- A token is cited when it has been drawn. -/
theorem refuse {f : ParseFault} (hf : (Diagnostic.parse f).cited? = some t) :
    LenientAfter t supply (Reader.refuse f) P := fun _ _ hdrew _ =>
  .unparsable (hdrew.passes_note hf) fun _ =>
    Or.inl ⟨t, rfl, .parse f, List.mem_cons_self, hf⟩

/-- **An operator whose right operand is missing is dropped.**  What comes after goes on
without them both. -/
theorem optional_bind {op : BinaryOp} {operand : Reader α} {next : Option α → Reader β}
    (ht : t.kind = .operator op) (hoperand : Lenient supply operand P)
    (hnone : Lenient supply (next none) Q)
    (hsome : ∀ a, Lenient supply (next (some a)) fun ks' b =>
      ∀ ks, P ks a → Q (t :: (ks ++ ks')) b) :
    LenientAfter t supply (Reader.optional operand >>= next) Q := by
  intro feed mid hdrew hlength
  have hrun := hoperand mid hlength
  cases hread : operand mid with
  | ok a after =>
    rw [bind_of_ok (optional_of_ok hread)]
    rw [hread] at hrun
    cases hrun with
    | ok passes kept =>
      have hafter := Nat.lt_of_le_of_lt passes.length_le hlength
      refine (hsome a after hafter).after (R := fun ks => ∃ ks', ks = t :: ks' ∧ P ks' a)
        (hdrew.passes.trans passes) (fun hsound => ?_) ?_
      · obtain ⟨ks, hthins, hks⟩ := kept hsound
        exact ⟨t :: ks, (Thins.single t).append hthins (by simp), ks, rfl, hks⟩
      · rintro ks ks' b ⟨ks'', rfl, hks''⟩ hks'
        exact hks' ks'' hks''
  | error refusal after =>
    rw [hread] at hrun
    cases hrun with
    | unparsable passes reported =>
      rw [bind_of_ok (optional_of_unparsable hread)]
      have hafter := Nat.lt_of_le_of_lt passes.length_le hlength
      refine (hnone after hafter).after (R := fun ks => ks = []) (hdrew.passes.trans passes)
        (fun hsound => ⟨[], .drop ht (reported hsound), rfl⟩) ?_
      rintro ks ks' b rfl hks'
      exact hks'
    | tooDeep passes =>
      rw [bind_of_error (optional_of_tooDeep hread)]
      exact .tooDeep (hdrew.passes.trans passes)

end LenientAfter

/-! ## Operations -/

theorem links_lenient {level supply : Nat} {operand : Reader Expr}
    (hoperand : Lenient supply operand (Operation (level + 1))) (bound : Nat)
    (hbound : bound ≤ supply) (left : Expr) :
    Lenient bound (links level operand bound left) (Links level left) := by
  induction bound generalizing left with
  | zero => exact .zero
  | succ bound ih =>
    unfold links
    refine .draw_bind (.pure .nil) fun t => ?_
    dsimp only
    split
    case h_1 => exact .handBack_bind (.pure .nil)
    case h_2 op hop =>
      obtain ⟨ht, hlevel⟩ := operatorAt?_eq_some hop
      have hle : bound ≤ supply := Nat.le_of_succ_le hbound
      refine .optional_bind ht (hoperand.mono hle) (.pure .nil) fun right => ?_
      refine (ih hle _).imp fun rest e hrest operand hoperand => ?_
      exact .cons ht hlevel hoperand hrest

theorem chain_lenient {level supply : Nat} (hlevel : level < BinaryOp.levels)
    {operand : Reader Expr} (hoperand : Lenient supply operand (Operation (level + 1))) :
    Lenient supply (chain supply level operand) (Operation level) := by
  unfold chain
  refine hoperand.bind fun a => ?_
  refine (links_lenient hoperand supply (Nat.le_refl _) a).imp fun links e hlinks first hfirst => ?_
  exact .chain hlevel hfirst hlinks

theorem signs_lenient (supply : Nat) (drawn : List UnaryOp) :
    Lenient supply (signs supply drawn) fun marks all => ∃ ops, all = ops.reverse ++ drawn ∧
      List.Forall₂ (fun t op => t.kind.unary? = some op) marks ops := by
  induction supply generalizing drawn with
  | zero => exact .zero
  | succ supply ih =>
    unfold signs
    refine .draw_bind (.pure ⟨[], rfl, .nil⟩) fun t => ?_
    dsimp only
    split
    case h_1 op hop =>
      refine .take ((ih _).imp ?_)
      rintro marks all ⟨ops, rfl, hmarks⟩
      exact ⟨op :: ops, by simp, .cons hop hmarks⟩
    case h_2 => exact .handBack_bind (.pure ⟨[], rfl, .nil⟩)

theorem signed_lenient {supply : Nat} {operand : Reader Expr}
    (hoperand : Lenient supply operand Primary) :
    Lenient supply (signed supply operand) (Operation BinaryOp.levels) := by
  unfold signed
  refine (signs_lenient supply []).bind fun drawn => ?_
  refine hoperand.bind fun e => .pure ?_
  rintro ts hprimary marks ⟨ops, rfl, hmarks⟩
  rw [List.append_nil, List.append_nil, List.foldl_reverse]
  exact .signed (Nat.le_refl _) hmarks hprimary

/-! ## Operands -/

theorem closeBracket_lenient (supply : Nat) :
    Lenient supply closeBracket fun ks _ => ∃ ket, ks = [ket] ∧ ket.kind = .closeBracket := by
  cases supply with
  | zero => exact .zero
  | succ supply =>
    unfold closeBracket
    refine .expect_bind fun t => ?_
    split
    case isTrue ht => exact .pure ⟨t, rfl, ht⟩
    case isFalse => exact .refuse rfl

theorem moreArguments_lenient {supply : Nat} {argument : Reader Expr}
    (hargument : Lenient supply argument Expression) (bound : Nat) (hbound : bound ≤ supply)
    (read : List Expr) :
    Lenient bound (moreArguments argument bound read) fun ts all =>
      ∃ es, all = read.reverse ++ es ∧ ArgumentList ts es := by
  induction bound generalizing read with
  | zero => exact .zero
  | succ bound ih =>
    unfold moreArguments
    refine (hargument.mono hbound).bind fun e => .expect_bind fun t => ?_
    split
    case h_1 ht => exact .pure fun ts he => ⟨[e], by simp, .last he ht⟩
    case h_2 ht =>
      refine .take ((ih (Nat.le_of_succ_le hbound) _).imp ?_)
      rintro more all ⟨es, rfl, hmore⟩ ts he
      exact ⟨e :: es, by simp, .next he ht hmore⟩
    case h_3 => exact .refuse rfl

theorem arguments_lenient {supply : Nat} {argument : Reader Expr}
    (hargument : Lenient supply argument Expression) :
    Lenient supply (arguments supply argument) CallArguments := by
  have hmore : Lenient supply (moreArguments argument supply []) CallArguments := by
    refine (moreArguments_lenient hargument supply (Nat.le_refl _) []).imp ?_
    rintro ts all ⟨es, rfl, hes⟩
    exact Or.inr hes
  cases supply with
  | zero => exact .zero
  | succ supply =>
    unfold arguments
    refine .draw_bind hmore fun t => ?_
    dsimp only
    split
    case isTrue ht => exact .pure (Or.inl ⟨t, rfl, ht, rfl⟩)
    case isFalse => exact .handBack_bind hmore

theorem primary_lenient {supply : Nat} {bracketed : Reader Expr} {arguments : Reader (List Expr)}
    (hbracketed : Lenient supply bracketed Expression)
    (harguments : Lenient supply arguments CallArguments) :
    Lenient supply (primary bracketed arguments) Primary := by
  cases supply with
  | zero => exact .zero
  | succ supply =>
    unfold primary
    refine .expect_bind fun t => ?_
    split
    case h_1 ht =>
      split
      case h_1 value hvalue => exact .pure (.number ht hvalue)
      case h_2 => exact .refuse rfl
    case h_2 ht =>
      cases supply with
      | zero => exact .take .zero
      | succ supply =>
        refine .take (.draw_bind (.pure (.name ht)) fun bra => ?_)
        dsimp only
        split
        case isTrue hbra =>
          refine .take ((harguments.mono (by omega)).bind fun es => .pure ?_)
          rintro ts (⟨ket, rfl, hket, rfl⟩ | hes)
          · exact .callWithout ht hbra hket
          · rw [List.append_nil]
            exact .call ht hbra hes
        case isFalse => exact .handBack_bind (.pure (.name ht))
    case h_3 hbra =>
      refine .take ((hbracketed.mono (Nat.le_succ _)).bind fun e => ?_)
      refine (closeBracket_lenient supply).bind fun _ => .pure ?_
      rintro ks ⟨ket, rfl, hket⟩ ts he
      exact .bracketed hbra he hket
    case h_4 => exact .refuse rfl

/-! ## Assignments -/

theorem assignment_lenient {supply : Nat} {target value : Reader Expr}
    (htarget : Lenient supply target (Operation 0)) (hvalue : Lenient supply value Expression) :
    Lenient supply (assignment target value) Expression := by
  cases supply with
  | zero => exact .zero
  | succ supply =>
    have hvalue' := hvalue.mono (Nat.le_succ supply)
    unfold assignment
    refine htarget.bind fun e => ?_
    split
    case h_1 x =>
      have halone : ∀ ts : List Token, Operation 0 ts (.var x) →
          Expression (ts ++ []) (.var x) := by
        intro ts he
        rw [List.append_nil]
        exact .operation he
      refine .draw_bind (.pure halone) fun t => ?_
      dsimp only
      split
      case h_1 ht =>
        refine .take (hvalue'.bind fun e => .pure ?_)
        intro value hvalue target htarget
        rw [List.append_nil]
        exact .assign htarget ht hvalue
      case h_2 op ht =>
        refine .take (hvalue'.bind fun e => .pure ?_)
        intro value hvalue target htarget
        rw [List.append_nil]
        exact .update htarget ht hvalue
      case h_3 ht => exact .pure fun target htarget => .increment htarget ht
      case h_4 ht => exact .pure fun target htarget => .decrement htarget ht
      case h_5 => exact .handBack_bind (.pure halone)
    case h_2 =>
      refine .pure fun ts he => ?_
      rw [List.append_nil]
      exact .operation he

/-! ## All phrases together -/

/-- **What is read of any kind of phrase derives it, but for what was dropped.** -/
theorem phrase_lenient (supply room : Nat) (kind : Phrase) :
    Lenient supply (phrase supply room kind) kind.Derived := by
  induction room generalizing kind with
  | zero => exact .overflow
  | succ room ih =>
    cases kind with
    | expression => exact ih .assignment
    | assignment => exact assignment_lenient (ih (.operation 0)) (ih .assignment)
    | operation level =>
      unfold phrase
      split
      case isTrue hlevel => exact chain_lenient hlevel (ih (.operation (level + 1)))
      case isFalse hlevel =>
        exact (ih .signed).imp fun ts e he => he.of_levels_le (Nat.le_of_not_lt hlevel)
    | signed => exact signed_lenient (ih .primary)
    | primary => exact primary_lenient (ih .expression) (arguments_lenient (ih .argument))
    | argument => exact ih .expression

end Reader

end LineCalculator
