import LineCalculator.Proofs.Reading.Grammar
import LineCalculator.Proofs.Reading.Silence

/-!
# What is read silently is in the grammar

A reader may yield a phrase although tokens were missing or did not fit, but then it
has reported that.  So the claim about a reader is about silence: if the feed is
silent after it, the tokens it has taken derive what it yields.

## The judgement

`Sound reader R` says that `reader`, wherever the feed is silent afterwards, has
led from the tokens that were to come to the tokens that are still to come as `R`
allows, and that a refusal for another reason than room is never silent.  The second
half is what makes up for phrases that may be missing: where a right operand was
refused reading goes on, but no longer in silence (`Sound.optional`).

There is one rule for each way of putting readers together, one lemma for each
reader, and then an induction on the room (`phrase_sound`).  No lemma about a
reader looks into the readers of its parts.
-/

namespace LineCalculator

open Grammar

/-- What the phrases of a kind derive. -/
def Phrase.Derived : Phrase → List Token → Expr → Prop
  | .expression | .assignment | .argument => Expression
  | .operation level => Operation level
  | .signed => Operation BinaryOp.levels
  | .primary => Primary

namespace Reader

variable {α β : Type}

/-- In silence a reader does to the tokens to come what `R` says, and it does not
refuse in silence but for want of room. -/
structure Sound (reader : Reader α) (R : α → List Token → List Token → Prop) : Prop where
  ok : ∀ {feed a after}, reader feed = .ok a after → after.Silent →
    feed.Quietly after ∧ R a feed.remaining after.remaining
  unparsable : ∀ {feed after}, reader feed = .error .unparsable after → ¬ after.Silent

/-- Tokens that derive a phrase have been taken. -/
def Takes (P : List Token → α → Prop) (a : α) (before after : List Token) : Prop :=
  ∃ ts, before = ts ++ after ∧ P ts a

theorem Takes.nil {P : List Token → α → Prop} {a : α} (h : P [] a) (ts : List Token) :
    Takes P a ts ts := ⟨[], rfl, h⟩

/-! ## Rules -/

namespace Sound

variable {R : α → List Token → List Token → Prop}
  {Q : β → List Token → List Token → Prop}

theorem imp {reader : Reader α} {R₂ : α → List Token → List Token → Prop}
    (h : Sound reader R) (himp : ∀ a x y, R a x y → R₂ a x y) :
    Sound reader R₂ where
  ok hok hsilent := ⟨(h.ok hok hsilent).1, himp _ _ _ (h.ok hok hsilent).2⟩
  unparsable := h.unparsable

theorem pure {a : α} (h : ∀ x, R a x x) : Sound (Pure.pure a) R where
  ok hok _ := by
    cases hok
    exact ⟨.refl _, h _⟩
  unparsable herror := by cases herror

/-- What comes after a reader has to do justice to whatever that reader has read. -/
theorem bind {reader : Reader α} {next : α → Reader β} (hreader : Sound reader R)
    (hnext : ∀ a, Sound (next a) fun b y z => ∀ x, R a x y → Q b x z) :
    Sound (reader >>= next) Q where
  ok hok hsilent := by
    obtain ⟨a, mid, hread, hgo⟩ := bind_eq_ok hok
    obtain ⟨hquiet', hreads'⟩ := (hnext a).ok hgo hsilent
    obtain ⟨hquiet, hreads⟩ := hreader.ok hread (hquiet'.silent_iff.1 hsilent)
    exact ⟨hquiet.trans hquiet', hreads' _ hreads⟩
  unparsable herror := by
    rcases bind_eq_error herror with hread | ⟨a, mid, -, hgo⟩
    · exact hreader.unparsable hread
    · exact (hnext a).unparsable hgo

theorem draw : Sound Reader.draw fun t? x y =>
    t? = none ∧ x = [] ∧ y = [] ∨ ∃ t, t? = some t ∧ x = t :: y where
  ok {feed t? after} hok hsilent := by
    cases hfeed : feed.remaining with
    | cons t rest =>
      obtain ⟨after', hdraw, hquiet, hrest⟩ := draw_cons hfeed
      rw [hdraw] at hok
      cases hok
      exact ⟨hquiet, Or.inr ⟨t, rfl, by rw [hrest]⟩⟩
    | nil =>
      by_cases hfault : feed.fault = none
      · rw [draw_end hfeed hfault] at hok
        cases hok
        exact ⟨.refl _, Or.inl ⟨rfl, rfl, hfeed⟩⟩
      · obtain ⟨after', hdraw, hloud⟩ := draw_fault hfeed hfault
        rw [hdraw] at hok
        cases hok
        exact absurd hsilent hloud
  unparsable {feed after} herror := by
    unfold Reader.draw at herror
    split at herror <;> cases herror

theorem refuse (f : ParseFault) : Sound (Reader.refuse f) R where
  ok hok := by cases hok
  unparsable herror := by
    cases herror
    exact Feed.not_silent_note _ _

theorem overflow : Sound Reader.overflow R where
  ok hok := by cases hok
  unparsable herror := by cases herror

theorem refuseEnd : Sound Reader.refuseEnd R where
  ok {feed a after} hok := by
    unfold Reader.refuseEnd at hok
    split at hok
    · cases hok
    · cases hok
  unparsable {feed after} herror := by
    unfold Reader.refuseEnd at herror
    split at herror
    case isTrue hfailed =>
      cases herror
      exact fun hsilent => absurd hsilent.1 (by simp [hfailed])
    case isFalse => exact (refuse (R := R) .endOfInput).unparsable herror

/-- A token that has been drawn stands before whatever comes after it. -/
theorem draw_bind {next : Option Token → Reader β}
    (hnone : Sound (next none) fun b y z => y = [] → Q b y z)
    (hsome : ∀ t, Sound (next (some t)) fun b y z => Q b (t :: y) z) :
    Sound (Reader.draw >>= next) Q := by
  refine draw.bind fun t? => ?_
  cases t? with
  | none =>
    refine hnone.imp fun b y z hreads x hx => ?_
    rcases hx with ⟨-, rfl, rfl⟩ | ⟨t, ht, -⟩
    · exact hreads rfl
    · exact absurd ht (by simp)
  | some t =>
    refine (hsome t).imp fun b y z hreads x hx => ?_
    rcases hx with ⟨ht, -⟩ | ⟨u, hu, rfl⟩
    · exact absurd ht (by simp)
    · cases hu
      exact hreads

theorem handBack (t : Token) : Sound (Reader.handBack t) fun _ x y => y = t :: x where
  ok {feed a after} hok _ := by
    obtain ⟨after', hback, hquiet, hrest⟩ := handBack_eq t feed
    rw [hback] at hok
    cases hok
    exact ⟨hquiet, hrest⟩
  unparsable herror := by cases herror

/-- A token that has been handed back is gone on with. -/
theorem handBack_bind {t : Token} {next : Reader β} (hnext : Sound next Q) :
    Sound (Reader.handBack t >>= fun _ => next) fun b y z => Q b (t :: y) z := by
  refine (handBack t).bind fun _ => hnext.imp ?_
  rintro b y z hreads x rfl
  exact hreads

theorem expect_bind {next : Token → Reader β}
    (hnext : ∀ t, Sound (next t) fun b y z => Q b (t :: y) z) :
    Sound (Reader.expect >>= next) Q := by
  have hexpect : Sound Reader.expect fun t x y => x = t :: y := by
    unfold Reader.expect
    exact draw_bind refuseEnd fun t => pure fun x => rfl
  refine hexpect.bind fun t => (hnext t).imp ?_
  rintro b y z hreads x rfl
  exact hreads

/-- In silence no phrase is missing. -/
theorem optional {reader : Reader α} (h : Sound reader R) :
    Sound (Reader.optional reader) fun a? x y => ∃ a, a? = some a ∧ R a x y where
  ok {feed a? after} hok hsilent := by
    unfold Reader.optional at hok
    split at hok
    case h_1 a mid hread =>
      cases hok
      obtain ⟨hquiet, hreads⟩ := h.ok hread hsilent
      exact ⟨hquiet, a, rfl, hreads⟩
    case h_2 mid hread =>
      cases hok
      exact absurd hsilent (h.unparsable hread)
    case h_3 => cases hok
  unparsable {feed after} herror := by
    unfold Reader.optional at herror
    split at herror <;> cases herror

end Sound

/-! ## Operations -/

theorem operatorAt?_eq_some {level : Nat} {kind : TokenKind} {op : BinaryOp}
    (h : kind.operatorAt? level = some op) : kind = .operator op ∧ op.level = level := by
  unfold TokenKind.operatorAt? at h
  split at h
  case h_1 op' =>
    split at h
    case isTrue hlevel =>
      cases h
      exact ⟨rfl, hlevel⟩
    case isFalse => cases h
  case h_2 => cases h

theorem links_sound {level : Nat} {operand : Reader Expr}
    (hoperand : Sound operand (Takes (Operation (level + 1)))) (supply : Nat) (left : Expr) :
    Sound (links level operand supply left) (Takes (Links level left)) := by
  induction supply generalizing left with
  | zero =>
    unfold links
    exact .pure (Takes.nil .nil)
  | succ supply ih =>
    unfold links
    refine .draw_bind (.pure fun x _ => Takes.nil .nil x) fun t => ?_
    dsimp only
    split
    case h_1 => exact .handBack_bind (.pure (Takes.nil .nil))
    case h_2 op hop =>
      refine hoperand.optional.bind fun right? => ?_
      cases right? with
      -- a missing operand has been reported, so this is not silence
      | none => exact .pure (by simp)
      | some right =>
        refine (ih _).imp ?_
        rintro e y z ⟨rest, rfl, hrest⟩ x ⟨right', hright', operand, rfl, hoperand⟩
        cases hright'
        obtain ⟨ht, hlevel⟩ := operatorAt?_eq_some hop
        exact ⟨t :: (operand ++ rest), by simp, .cons ht hlevel hoperand hrest⟩

theorem chain_sound {level : Nat} (hlevel : level < BinaryOp.levels) {operand : Reader Expr}
    (hoperand : Sound operand (Takes (Operation (level + 1)))) (supply : Nat) :
    Sound (chain supply level operand) (Takes (Operation level)) := by
  unfold chain
  refine hoperand.bind fun a => (links_sound hoperand supply a).imp ?_
  rintro e y z ⟨links, rfl, hlinks⟩ x ⟨first, rfl, hfirst⟩
  exact ⟨first ++ links, by simp, .chain hlevel hfirst hlinks⟩

theorem signs_sound (supply : Nat) (drawn : List UnaryOp) :
    Sound (signs supply drawn) (Takes fun marks all => ∃ ops, all = ops.reverse ++ drawn ∧
      List.Forall₂ (fun t op => t.kind.unary? = some op) marks ops) := by
  induction supply generalizing drawn with
  | zero =>
    unfold signs
    exact .pure (Takes.nil ⟨[], rfl, .nil⟩)
  | succ supply ih =>
    unfold signs
    refine .draw_bind (.pure fun x _ => Takes.nil ⟨[], rfl, .nil⟩ x) fun t => ?_
    dsimp only
    split
    case h_1 op hop =>
      refine (ih _).imp ?_
      rintro all y z ⟨marks, rfl, ops, rfl, hmarks⟩
      exact ⟨t :: marks, rfl, op :: ops, by simp, .cons hop hmarks⟩
    case h_2 => exact .handBack_bind (.pure (Takes.nil ⟨[], rfl, .nil⟩))

theorem signed_sound {operand : Reader Expr} (hoperand : Sound operand (Takes Primary))
    (supply : Nat) :
    Sound (signed supply operand) (Takes (Operation BinaryOp.levels)) := by
  unfold signed
  refine (signs_sound supply []).bind fun drawn => ?_
  refine hoperand.bind fun e => .pure ?_
  rintro z y ⟨ts, rfl, hprimary⟩ x ⟨marks, rfl, ops, rfl, hmarks⟩
  refine ⟨marks ++ ts, by simp, ?_⟩
  rw [List.append_nil, List.foldl_reverse]
  exact .signed (Nat.le_refl _) hmarks hprimary

/-! ## Operands -/

theorem closeBracket_sound : Sound closeBracket fun _ x y =>
    ∃ ket, x = ket :: y ∧ ket.kind = .closeBracket := by
  unfold closeBracket
  refine .expect_bind fun t => ?_
  split
  case isTrue ht => exact .pure fun x => ⟨t, rfl, ht⟩
  case isFalse => exact .refuse _

theorem moreArguments_sound {argument : Reader Expr}
    (hargument : Sound argument (Takes Expression)) (supply : Nat) (read : List Expr) :
    Sound (moreArguments argument supply read)
      (Takes fun ts all => ∃ es, all = read.reverse ++ es ∧ ArgumentList ts es) := by
  induction supply generalizing read with
  | zero =>
    unfold moreArguments
    exact .refuseEnd
  | succ supply ih =>
    unfold moreArguments
    refine hargument.bind fun e => .expect_bind fun t => ?_
    split
    case h_1 ht =>
      refine .pure ?_
      rintro z x ⟨ts, rfl, he⟩
      exact ⟨ts ++ [t], by simp, [e], by simp, .last he ht⟩
    case h_2 ht =>
      refine (ih _).imp ?_
      rintro all y z ⟨more, rfl, es, rfl, hmore⟩ x ⟨ts, rfl, he⟩
      exact ⟨ts ++ t :: more, by simp, e :: es, by simp, .next he ht hmore⟩
    case h_3 => exact .refuse _

/-- The arguments of a call, which may be none, up to and with the closing bracket. -/
def CallArguments (ts : List Token) (es : List Expr) : Prop :=
  (∃ ket, ts = [ket] ∧ ket.kind = .closeBracket ∧ es = []) ∨ ArgumentList ts es

theorem arguments_sound {argument : Reader Expr}
    (hargument : Sound argument (Takes Expression)) (supply : Nat) :
    Sound (arguments supply argument) (Takes CallArguments) := by
  have hmore : Sound (moreArguments argument supply []) (Takes CallArguments) := by
    refine (moreArguments_sound hargument supply []).imp ?_
    rintro all y z ⟨ts, rfl, es, rfl, hes⟩
    exact ⟨ts, rfl, Or.inr hes⟩
  unfold arguments
  refine .draw_bind (hmore.imp fun _ _ _ hreads _ => hreads) fun t => ?_
  dsimp only
  split
  case isTrue ht => exact .pure fun x => ⟨[t], rfl, Or.inl ⟨t, rfl, ht, rfl⟩⟩
  case isFalse => exact .handBack_bind hmore

theorem primary_sound {bracketed : Reader Expr} {arguments : Reader (List Expr)}
    (hbracketed : Sound bracketed (Takes Expression))
    (harguments : Sound arguments (Takes CallArguments)) :
    Sound (primary bracketed arguments) (Takes Primary) := by
  unfold primary
  refine .expect_bind fun t => ?_
  split
  case h_1 ht =>
    split
    case h_1 value hvalue => exact .pure fun x => ⟨[t], rfl, .number ht hvalue⟩
    case h_2 => exact .refuse _
  case h_2 ht =>
    refine .draw_bind (.pure fun x _ => ⟨[t], rfl, .name ht⟩) fun bra => ?_
    dsimp only
    split
    case isTrue hbra =>
      refine harguments.bind fun es => .pure ?_
      rintro z x ⟨ts, rfl, ⟨ket, rfl, hket, rfl⟩ | hes⟩
      · exact ⟨[t, bra, ket], rfl, .callWithout ht hbra hket⟩
      · exact ⟨t :: bra :: ts, rfl, .call ht hbra hes⟩
    case isFalse =>
      exact .handBack_bind (Q := fun e y z => Takes Primary e (t :: y) z)
        (.pure fun x => ⟨[t], rfl, .name ht⟩)
  case h_3 hbra =>
    refine hbracketed.bind fun e => closeBracket_sound.bind fun _ => .pure ?_
    rintro z y ⟨ket, rfl, hket⟩ x ⟨ts, rfl, he⟩
    exact ⟨t :: (ts ++ [ket]), by simp, .bracketed hbra he hket⟩
  case h_4 => exact .refuse _

/-! ## Assignments -/

theorem assignment_sound {target value : Reader Expr}
    (htarget : Sound target (Takes (Operation 0))) (hvalue : Sound value (Takes Expression)) :
    Sound (assignment target value) (Takes Expression) := by
  unfold assignment
  refine htarget.bind fun e => ?_
  split
  case h_1 x =>
    -- whatever is drawn and fits no assignment is handed back
    have halone : ∀ y before : List Token, Takes (Operation 0) (.var x) before y →
        Takes Expression (.var x) before y := by
      rintro y before ⟨ts, rfl, he⟩
      exact ⟨ts, rfl, .operation he⟩
    refine .draw_bind (.pure fun y _ => halone y) fun t => ?_
    dsimp only
    split
    case h_1 ht =>
      refine hvalue.bind fun e => .pure ?_
      rintro z y ⟨value, rfl, hvalue⟩ before ⟨target, rfl, htarget⟩
      exact ⟨target ++ t :: value, by simp, .assign htarget ht hvalue⟩
    case h_2 op ht =>
      refine hvalue.bind fun e => .pure ?_
      rintro z y ⟨value, rfl, hvalue⟩ before ⟨target, rfl, htarget⟩
      exact ⟨target ++ t :: value, by simp, .update htarget ht hvalue⟩
    case h_3 ht =>
      refine .pure ?_
      rintro y before ⟨target, rfl, htarget⟩
      exact ⟨target ++ [t], by simp, .increment htarget ht⟩
    case h_4 ht =>
      refine .pure ?_
      rintro y before ⟨target, rfl, htarget⟩
      exact ⟨target ++ [t], by simp, .decrement htarget ht⟩
    case h_5 =>
      exact .handBack_bind (Q := fun b y z => ∀ before : List Token,
        Takes (Operation 0) (.var x) before y → Takes Expression b before z) (.pure halone)
  case h_2 =>
    refine .pure ?_
    rintro y x ⟨ts, rfl, he⟩
    exact ⟨ts, rfl, .operation he⟩

/-! ## All phrases together -/

/-- **What is read silently of any kind of phrase derives it.** -/
theorem phrase_sound (supply room : Nat) (kind : Phrase) :
    Sound (phrase supply room kind) (Takes kind.Derived) := by
  induction room generalizing kind with
  | zero => exact .overflow
  | succ room ih =>
    cases kind with
    | expression => exact ih .assignment
    | assignment => exact assignment_sound (ih (.operation 0)) (ih .assignment)
    | operation level =>
      unfold phrase
      split
      case isTrue hlevel => exact chain_sound hlevel (ih (.operation (level + 1))) supply
      case isFalse hlevel =>
        refine (ih .signed).imp ?_
        rintro e x y ⟨ts, rfl, he⟩
        exact ⟨ts, rfl, he.of_levels_le (Nat.le_of_not_lt hlevel)⟩
    | signed => exact signed_sound (ih .primary) supply
    | primary =>
      exact primary_sound (ih .expression) (arguments_sound (ih .argument) supply)
    | argument => exact ih .expression

/-! ## Lines -/

/-- A request to end the session has been taken, or there is none. -/
def SoughtExit (l? : Option Line) (before after : List Token) : Prop :=
  l? = none ∧ before = after ∧
      (∀ t rest, before = t :: rest → isWord exitWords t = true → ¬ Feed.AtEnd rest) ∨
    l? = some .exit ∧ ∃ t, before = t :: after ∧ isWord exitWords t = true

/-- A request to forget a variable has been taken, or there is none. -/
def SoughtDelete (l? : Option Line) (before after : List Token) : Prop :=
  l? = none ∧ before = after ∨
    ∃ t name, l? = some (.delete name.lexeme) ∧ before = t :: name :: after ∧
      isWord deleteWords t = true ∧ name.kind = .identifier

theorem exitCommand_sound : Sound exitCommand SoughtExit := by
  unfold exitCommand
  refine .draw_bind (.pure ?_) fun t => ?_
  · rintro x rfl
    exact Or.inl ⟨rfl, rfl, by simp⟩
  dsimp only
  split
  case isTrue ht =>
    refine .draw_bind (.pure fun y _ => Or.inr ⟨rfl, t, rfl, ht⟩) fun following => ?_
    -- the token behind the word decides, and stays where it is in either case
    refine (Sound.handBack following).bind fun _ => ?_
    split
    case isTrue =>
      refine .pure ?_
      rintro x y rfl
      exact Or.inr ⟨rfl, t, rfl, ht⟩
    case isFalse hkind =>
      refine (Sound.handBack t).bind fun _ => .pure ?_
      rintro x y rfl z rfl
      refine Or.inl ⟨rfl, rfl, ?_⟩
      rintro t' rest hrest - hend
      cases hrest
      exact hkind (hend following rfl)
  case isFalse ht =>
    refine (Sound.handBack t).bind fun _ => .pure ?_
    rintro x y rfl
    refine Or.inl ⟨rfl, rfl, ?_⟩
    rintro t' rest hrest ht' -
    cases hrest
    exact ht ht'

theorem deleteCommand_sound : Sound deleteCommand SoughtDelete := by
  have hnone : ∀ x, SoughtDelete none x x := fun x => Or.inl ⟨rfl, rfl⟩
  unfold deleteCommand
  refine .draw_bind (.pure fun x _ => hnone x) fun t => ?_
  dsimp only
  split
  case isTrue ht =>
    refine .draw_bind ?_ fun name => ?_
    · refine (Sound.handBack_bind (.pure hnone)).imp ?_
      exact fun _ _ _ hreads _ => hreads
    dsimp only
    split
    case isTrue hname => exact .pure fun x => Or.inr ⟨t, name, rfl, rfl, ht, hname⟩
    case isFalse =>
      exact .handBack_bind (Q := fun l? y z => SoughtDelete l? (t :: y) z)
        (.handBack_bind (.pure hnone))
  case isFalse => exact .handBack_bind (.pure hnone)

/-- What is read silently of a line derives it, if the line ends there. -/
theorem content_sound (supply room : Nat) : Sound (content supply room) fun l x y =>
    ∃ ts, x = ts ++ y ∧ (Feed.AtEnd y → WholeLine ts l) := by
  unfold content command
  simp only [bind_assoc]
  refine exitCommand_sound.bind fun exit? => ?_
  cases exit? with
  | some l =>
    simp only [pure_bind]
    refine .pure ?_
    rintro y x (⟨hl, -⟩ | ⟨hl, t, rfl, ht⟩)
    · exact absurd hl (by simp)
    · cases hl
      exact ⟨[t], rfl, fun _ => .exit ht⟩
  | none =>
    refine deleteCommand_sound.bind fun delete? => ?_
    cases delete? with
    | some l =>
      refine .pure ?_
      rintro z y (⟨hl, -⟩ | ⟨t, name, hl, rfl, ht, hname⟩) x (⟨-, rfl, -⟩ | ⟨hnone, -⟩)
      · exact absurd hl (by simp)
      · exact absurd hl (by simp)
      · cases hl
        exact ⟨[t, name], rfl, fun _ => .delete ht hname⟩
      · exact absurd hnone (by simp)
    | none =>
      refine (phrase_sound supply room .expression).bind fun e => .pure ?_
      rintro z y ⟨ts, rfl, he⟩ x hdelete x' hexit
      rcases hdelete with ⟨-, rfl⟩ | ⟨t, name, hl, -⟩
      · rcases hexit with ⟨-, rfl, halone⟩ | ⟨hl, -⟩
        · refine ⟨ts, rfl, fun hend => .expression he ?_⟩
          rintro t rfl
          by_cases hword : isWord exitWords t = true
          · exact absurd hend (halone t z rfl hword)
          · exact Bool.eq_false_iff.2 hword
        · exact absurd hl (by simp)
      · exact absurd hl (by simp)

theorem endOfLine_sound {feed after : Feed} (h : endOfLine feed = .ok () after)
    (hsilent : after.Silent) :
    feed.Quietly after ∧ Feed.EndsLine feed.remaining feed.fault := by
  unfold endOfLine at h
  cases hfeed : feed.remaining with
  | cons t rest =>
    obtain ⟨mid, hdraw, hquiet, -⟩ := draw_cons hfeed
    rw [bind_of_ok hdraw] at h
    dsimp only at h
    split at h
    case isTrue ht =>
      cases h
      exact ⟨hquiet, Or.inr ⟨t, rest, rfl, ht⟩⟩
    case isFalse => cases h
  | nil =>
    by_cases hfault : feed.fault = none
    · rw [bind_of_ok (draw_end hfeed hfault)] at h
      cases h
      exact ⟨.refl _, Or.inl ⟨rfl, hfault⟩⟩
    · obtain ⟨mid, hdraw, hloud⟩ := draw_fault hfeed hfault
      rw [bind_of_ok hdraw] at h
      cases h
      exact absurd hsilent hloud

theorem ending_eq_ok {l l' : Line} {feed after : Feed} (h : ending l feed = .ok l' after) :
    endOfLine feed = .ok () after ∧ l' = l ∧ after.failed = false := by
  unfold ending soundSource at h
  obtain ⟨⟨⟩, mid, hend, h⟩ := bind_eq_ok h
  obtain ⟨⟨⟩, mid', hsound, h⟩ := bind_eq_ok h
  split at hsound
  case isTrue => cases hsound
  case isFalse hfailed =>
    cases hsound
    cases h
    exact ⟨hend, rfl, Bool.eq_false_iff.2 hfailed⟩

/-- **What is read silently is a line of the grammar, and the line ends there.** -/
theorem line_sound {supply room : Nat} {feed after : Feed} {l : Line}
    (h : line supply room feed = .ok l after) (hnone : after.diagnostics = []) :
    ∃ ts rest, feed.remaining = ts ++ rest ∧ WholeLine ts l ∧ Feed.EndsLine rest feed.fault := by
  rw [line_eq] at h
  obtain ⟨l', mid, hcontent, hending⟩ := bind_eq_ok h
  obtain ⟨hend, rfl, hfailed⟩ := ending_eq_ok hending
  have hsilent : after.Silent := ⟨hfailed, hnone⟩
  obtain ⟨hquiet, hends⟩ := endOfLine_sound hend hsilent
  obtain ⟨hquiet', ts, hts, hline⟩ :=
    (content_sound supply room).ok hcontent (hquiet.silent_iff.1 hsilent)
  rw [hquiet'.fault] at hends
  exact ⟨ts, mid.remaining, hts, hline hends.atEnd, hends⟩

end Reader

end LineCalculator
