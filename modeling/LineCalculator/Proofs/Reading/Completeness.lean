import LineCalculator.Proofs.Reading.Grammar
import LineCalculator.Proofs.Reading.Room

/-!
# What is in the grammar is read

Every derivation has a depth, and the depth alone decides: with that much room the
tokens are read as the derivation says, and nothing is reported; with less room they
are refused for want of it (`Expression.hasDepth`).  Nothing else refuses them, and
neither the tokens that follow nor how many they are has a say in it.

## What may follow

A reader of a phrase looks one token beyond it, so what it reads depends on what
follows.  An operation of a level must not be followed by an operator of that level or
a tighter one, which would be part of it, and no name by an opening bracket (`Fits`).
An expression is followed by what closes it (`Closes`), because a sign of assignment
could belong to it.

## The order of the lemmas

For each reader and each rule of the grammar about it there is a lemma that takes the
readings of the parts as they come.  The induction over derivations
(`Expression.hasDepth` and its companions) only adds up depths.
-/

namespace LineCalculator

open Grammar

/-! ## What may follow a phrase -/

/-- Some tokens may follow an operation of a level: they do not go on with it. -/
def Fits (level : Nat) (rest : List Token) : Prop :=
  ∀ t ∈ rest.head?, t.kind ≠ .openBracket ∧ ∀ op, t.kind = .operator op → op.level < level

/-- Some tokens may follow an expression: they close it, or are none. -/
def Closes (rest : List Token) : Prop :=
  ∀ t ∈ rest.head?, t.kind = .newline ∨ t.kind = .closeBracket ∨ t.kind = .comma

theorem Fits.mono {level level' : Nat} {rest : List Token} (h : Fits level rest)
    (hlevel : level ≤ level') : Fits level' rest := fun t ht =>
  ⟨(h t ht).1, fun op hop => Nat.lt_of_lt_of_le ((h t ht).2 op hop) hlevel⟩

/-- No operator is of a level behind the last. -/
theorem Fits.levels {level : Nat} {rest : List Token} (h : Fits level rest) :
    Fits BinaryOp.levels rest := fun t ht => ⟨(h t ht).1, fun op _ => op.level_lt_levels⟩

theorem Fits.of_kind {level : Nat} {t : Token} {rest : List Token} (hbra : t.kind ≠ .openBracket)
    (hop : ∀ op, t.kind ≠ .operator op) : Fits level (t :: rest) := by
  intro u hu
  cases hu
  exact ⟨hbra, fun op h => absurd h (hop op)⟩

theorem Closes.fits {rest : List Token} (h : Closes rest) (level : Nat) : Fits level rest := by
  intro t ht
  rcases h t ht with hkind | hkind | hkind
  · simp [hkind]
  · simp [hkind]
  · simp [hkind]

theorem closes_cons {t : Token} {rest : List Token}
    (h : t.kind = .newline ∨ t.kind = .closeBracket ∨ t.kind = .comma) : Closes (t :: rest) := by
  intro u hu
  cases hu
  exact h

/-- The rest of a run of operators does not go on with the operand before it. -/
theorem Grammar.Links.fits {level : Nat} {left e : Expr} {ts rest : List Token}
    (h : Links level left ts e) (hrest : Fits level rest) : Fits (level + 1) (ts ++ rest) := by
  cases h with
  | nil => exact hrest.mono (Nat.le_succ level)
  | cons ht hop hoperand hlinks =>
    intro u hu
    cases hu
    refine ⟨by simp [ht], fun op hop' => ?_⟩
    rw [ht] at hop'
    cases hop'
    omega

namespace Reader

variable {supply : Nat} {p q : Prop}

/-! ## Operations -/

theorem operatorAt?_eq_none {level : Nat} {t : Token} {rest : List Token}
    (h : Fits level (t :: rest)) : t.kind.operatorAt? level = none := by
  have hlt := (h t rfl).2
  unfold TokenKind.operatorAt?
  split
  case h_1 op hop => exact if_neg (Nat.ne_of_lt (hlt op hop))
  case h_2 => rfl

theorem reads_links_nil (level : Nat) (operand : Reader Expr) (left : Expr) :
    Reads (links level operand supply left) supply True [] left (Fits level) := by
  cases supply with
  | zero => exact .zero
  | succ supply =>
    refine .peek_end rfl fun t rest hrest => ?_
    simp only [operatorAt?_eq_none hrest]

theorem reads_links_cons {level : Nat} {operand : Reader Expr} {t : Token} {op : BinaryOp}
    {ts more : List Token} {left right e : Expr} (ht : t.kind = .operator op)
    (hop : op.level = level) (hoperand : Reads operand supply p ts right (Fits (level + 1)))
    (hmore : Reads (links level operand supply (.binary op left right)) supply q more e
      (Fits level))
    (hfits : ∀ rest, Fits level rest → Fits (level + 1) (more ++ rest)) :
    Reads (links level operand (supply + 1) left) (supply + 1) (p ∧ q) (t :: (ts ++ more)) e
      (Fits level) := by
  have hkind : t.kind.operatorAt? level = some op := by
    rw [ht]
    exact if_pos hop
  unfold links
  refine .draw_bind ?_ (Nat.le_refl _)
  simp only [hkind]
  exact hoperand.optional.bind hmore hfits

theorem reads_signs {marks : List Token} {ops : List UnaryOp}
    (hmarks : List.Forall₂ (fun t op => t.kind.unary? = some op) marks ops)
    (drawn : List UnaryOp) :
    Reads (signs supply drawn) supply True marks (ops.reverse ++ drawn)
      fun rest => ∃ t more, rest = t :: more ∧ t.kind.unary? = none := by
  induction hmarks generalizing supply drawn with
  | nil =>
    cases supply with
    | zero => exact .zero
    | succ supply =>
      refine .peek_end rfl ?_
      rintro t rest ⟨t', more, heq, ht⟩
      cases heq
      simp only [ht, List.reverse_nil, List.nil_append]
  | @cons t op marks ops ht hmore ih =>
    cases supply with
    | zero => exact .zero
    | succ supply =>
      refine .draw_bind ?_ (Nat.le_refl _)
      simp only [ht, List.reverse_cons, List.append_assoc, List.singleton_append]
      exact ih (op :: drawn)

theorem reads_signed {operand : Reader Expr} {marks ts : List Token} {ops : List UnaryOp}
    {e : Expr} {F : List Token → Prop}
    (hmarks : List.Forall₂ (fun t op => t.kind.unary? = some op) marks ops)
    (hprimary : Primary ts e) (hoperand : Reads operand supply p ts e F) :
    Reads (signed supply operand) supply p (marks ++ ts) (ops.foldr .unary e) F := by
  unfold signed
  refine (reads_signs hmarks []).bind_of_true (G := F) ?_ fun rest _ => ?_
  · refine hoperand.bind_pure ?_
    rw [List.append_nil, List.foldl_reverse]
  · obtain ⟨t, more, rfl, ht⟩ := hprimary.unary?_head
    exact ⟨t, more ++ rest, rfl, ht⟩

/-! ## Operands -/

theorem reads_closeBracket {ket : Token} (hket : ket.kind = .closeBracket)
    (F : List Token → Prop) : Reads closeBracket supply True [ket] () F := by
  unfold closeBracket
  refine .expect_bind ?_ (Nat.le_succ supply)
  rw [if_pos hket]
  exact .pure ()

theorem reads_moreArguments_last {argument : Reader Expr} {ts : List Token} {e : Expr}
    {ket : Token} {read : List Expr} (hargument : Reads argument (supply + 1) p ts e Closes)
    (hket : ket.kind = .closeBracket) :
    Reads (moreArguments argument (supply + 1) read) (supply + 1) p (ts ++ [ket])
      (read.reverse ++ [e]) fun _ => True := by
  unfold moreArguments
  refine Reads.congr (hargument.bind (.expect_bind ?_ (Nat.le_succ _)) ?_) (by rw [and_true])
  · simp only [hket, List.reverse_cons]
    exact .pure _
  · exact fun rest _ => closes_cons (Or.inr (Or.inl hket))

theorem reads_moreArguments_next {argument : Reader Expr} {ts more : List Token} {e : Expr}
    {es : List Expr} {t : Token} {read : List Expr}
    (hargument : Reads argument (supply + 1) p ts e Closes) (ht : t.kind = .comma)
    (hmore : Reads (moreArguments argument supply (e :: read)) supply q more
      ((e :: read).reverse ++ es) fun _ => True) :
    Reads (moreArguments argument (supply + 1) read) (supply + 1) (p ∧ q) (ts ++ t :: more)
      (read.reverse ++ e :: es) fun _ => True := by
  unfold moreArguments
  refine hargument.bind (.expect_bind ?_ (Nat.le_refl _)) ?_
  · rw [List.reverse_cons, List.append_assoc] at hmore
    simp only [ht]
    exact hmore
  · exact fun rest _ => closes_cons (Or.inr (Or.inr ht))

theorem reads_arguments_none {argument : Reader Expr} {ket : Token}
    (hket : ket.kind = .closeBracket) (F : List Token → Prop) :
    Reads (arguments supply argument) supply True [ket] [] F := by
  unfold arguments
  refine .draw_bind ?_ (Nat.le_succ supply)
  simp only [hket, if_true]
  exact .pure []

theorem reads_arguments_some {argument : Reader Expr} {ts : List Token} {es : List Expr}
    {F : List Token → Prop} (hts : Begins ts)
    (hmore : Reads (moreArguments argument supply []) supply p ts es F) :
    Reads (arguments supply argument) supply p ts es F := by
  obtain ⟨t, rest, rfl, hclose, -⟩ := hts
  unfold arguments
  refine .peek_bind ?_ hmore
  simp only [hclose, if_false]

section Primary

variable {bracketed : Reader Expr} {callArguments : Reader (List Expr)} {t bra : Token}

theorem reads_number {value : Binary64} (ht : t.kind = .number) (hvalue : t.value? = some value)
    (F : List Token → Prop) :
    Reads (primary bracketed callArguments) supply True [t] (.literal value) F := by
  unfold primary
  refine .expect_bind ?_ (Nat.le_succ supply)
  simp only [ht, hvalue]
  exact .pure _

theorem reads_name (ht : t.kind = .identifier) (level : Nat) :
    Reads (primary bracketed callArguments) supply True [t] (.var t.lexeme) (Fits level) := by
  unfold primary
  refine .expect_bind ?_ (Nat.le_succ supply)
  simp only [ht]
  refine .peek_end rfl fun u rest hrest => ?_
  simp only [(hrest u rfl).1, if_false]

theorem reads_call {ts : List Token} {es : List Expr} {F : List Token → Prop}
    (ht : t.kind = .identifier) (hbra : bra.kind = .openBracket)
    (harguments : Reads callArguments supply p ts es F) :
    Reads (primary bracketed callArguments) supply p (t :: bra :: ts) (.call t.lexeme es) F := by
  unfold primary
  refine .expect_bind ?_ (Nat.le_succ supply)
  simp only [ht]
  refine .draw_bind ?_ (Nat.le_succ supply)
  simp only [hbra, if_true]
  exact harguments.bind_pure rfl

theorem reads_bracketed {ts : List Token} {e : Expr} {ket : Token} (F : List Token → Prop)
    (hbra : bra.kind = .openBracket) (hexpression : Reads bracketed supply p ts e Closes)
    (hket : ket.kind = .closeBracket) :
    Reads (primary bracketed callArguments) supply p (bra :: (ts ++ [ket])) e F := by
  unfold primary
  refine .expect_bind ?_ (Nat.le_succ supply)
  simp only [hbra]
  refine Reads.congr (hexpression.bind ?_ ?_) (by rw [and_true])
  · exact (reads_closeBracket hket F).bind_pure rfl
  · exact fun rest _ => closes_cons (Or.inr (Or.inl hket))

end Primary

/-! ## Assignments -/

section Assignment

variable {target value : Reader Expr} {ts us : List Token} {x : String} {e : Expr}

theorem reads_operation (htarget : Reads target supply p ts e (Fits 0)) :
    Reads (assignment target value) supply p ts e Closes := by
  unfold assignment
  refine htarget.bind_nil ?_ fun rest hrest => hrest.fits 0
  split
  case h_1 x =>
    refine .peek_end rfl fun t rest hrest => ?_
    rcases hrest t rfl with ht | ht | ht
    · simp only [ht]
    · simp only [ht]
    · simp only [ht]
  case h_2 => exact .pure e

/-- Reads what a target is given, behind the token that follows it. -/
def given (value : Reader Expr) (x : String) (t : Token) : Reader Expr := do
  match t.kind with
  | .equals => return .assign x (← value)
  | .compound op => return updated x op (← value)
  | .increment => return updated x .add (.literal Binary64.one)
  | .decrement => return updated x .subtract (.literal Binary64.one)
  | _ =>
    handBack t
    pure (.var x)

/-- No sign of assignment goes on with the operation before it. -/
theorem reads_assignment {t : Token} (htarget : Reads target supply p ts (.var x) (Fits 0))
    (hbra : t.kind ≠ .openBracket) (hop : ∀ op, t.kind ≠ .operator op)
    (hgiven : Reads (given value x t) supply q us e Closes) :
    Reads (assignment target value) supply (p ∧ q) (ts ++ t :: us) e Closes := by
  unfold assignment
  refine htarget.bind (.draw_bind ?_ (Nat.le_succ supply)) fun rest _ => .of_kind hbra hop
  exact hgiven

theorem reads_assign {t : Token} (htarget : Reads target supply p ts (.var x) (Fits 0))
    (ht : t.kind = .equals) (hvalue : Reads value supply q us e Closes) :
    Reads (assignment target value) supply (p ∧ q) (ts ++ t :: us) (.assign x e) Closes := by
  refine reads_assignment htarget (by simp [ht]) (by simp [ht]) ?_
  simp only [given, ht]
  exact hvalue.bind_pure rfl

theorem reads_update {t : Token} {op : BinaryOp}
    (htarget : Reads target supply p ts (.var x) (Fits 0)) (ht : t.kind = .compound op)
    (hvalue : Reads value supply q us e Closes) :
    Reads (assignment target value) supply (p ∧ q) (ts ++ t :: us)
      (.assign x (.binary op (.var x) e)) Closes := by
  refine reads_assignment htarget (by simp [ht]) (by simp [ht]) ?_
  simp only [given, ht]
  exact hvalue.bind_pure rfl

theorem reads_increment {t : Token} (htarget : Reads target supply p ts (.var x) (Fits 0))
    (ht : t.kind = .increment) :
    Reads (assignment target value) supply p (ts ++ [t])
      (.assign x (.binary .add (.var x) (.literal Binary64.one))) Closes := by
  refine Reads.congr (reads_assignment htarget (by simp [ht]) (by simp [ht]) ?_) (by rw [and_true])
  simp only [given, ht]
  exact .pure _

theorem reads_decrement {t : Token} (htarget : Reads target supply p ts (.var x) (Fits 0))
    (ht : t.kind = .decrement) :
    Reads (assignment target value) supply p (ts ++ [t])
      (.assign x (.binary .subtract (.var x) (.literal Binary64.one))) Closes := by
  refine Reads.congr (reads_assignment htarget (by simp [ht]) (by simp [ht]) ?_) (by rw [and_true])
  simp only [given, ht]
  exact .pure _

end Assignment

/-! ## Depths

The recursion is over derivations.  The depth is chosen before the room, the supply and
the tokens that follow are known, which is what makes it a number of the derivation. -/

/-- Some tokens have a depth as a phrase of a kind: in that much room, and not in
less, they are read as `e`. -/
def HasDepth (kind : Phrase) (ts : List Token) (e : Expr) (Follow : List Token → Prop) : Prop :=
  ∃ depth, ∀ supply room, Reads (phrase supply room kind) supply (depth ≤ room) ts e Follow

/-- A phrase takes one unit of the room for itself. -/
theorem HasDepth.of_succ {kind : Phrase} {ts : List Token} {e : Expr}
    {Follow : List Token → Prop} (depth : Nat) (h : ∀ supply room,
      Reads (phrase supply (room + 1) kind) supply (depth ≤ room) ts e Follow) :
    HasDepth kind ts e Follow := by
  refine ⟨depth + 1, fun supply room => ?_⟩
  cases room with
  | zero => exact .overflow (Nat.not_succ_le_zero depth)
  | succ room => exact (h supply room).congr Nat.succ_le_succ_iff

/-- A phrase that is another one has one unit more of depth. -/
theorem HasDepth.of_eq {kind kind' : Phrase} {ts : List Token} {e : Expr}
    {Follow : List Token → Prop} (h : HasDepth kind ts e Follow)
    (heq : ∀ supply room, phrase supply (room + 1) kind' = phrase supply room kind) :
    HasDepth kind' ts e Follow := by
  obtain ⟨depth, h⟩ := h
  refine .of_succ depth fun supply room => ?_
  rw [heq]
  exact h supply room

end Reader

open Reader

namespace Grammar

mutual

/-- **Every derivation of an expression has a depth.** -/
theorem Expression.hasDepth {ts : List Token} {e : Expr} :
    Expression ts e → HasDepth .assignment ts e Closes
  | .operation hoperation => by
    obtain ⟨depth, h⟩ := hoperation.hasDepth
    exact .of_succ depth fun supply room => reads_operation (h supply room)
  | .assign htarget ht hvalue => by
    obtain ⟨depth, h⟩ := htarget.hasDepth
    obtain ⟨depth', h'⟩ := hvalue.hasDepth
    exact .of_succ (max depth depth') fun supply room =>
      (reads_assign (h supply room) ht (h' supply room)).congr Nat.max_le
  | .update htarget ht hvalue => by
    obtain ⟨depth, h⟩ := htarget.hasDepth
    obtain ⟨depth', h'⟩ := hvalue.hasDepth
    exact .of_succ (max depth depth') fun supply room =>
      (reads_update (h supply room) ht (h' supply room)).congr Nat.max_le
  | .increment htarget ht => by
    obtain ⟨depth, h⟩ := htarget.hasDepth
    exact .of_succ depth fun supply room => reads_increment (h supply room) ht
  | .decrement htarget ht => by
    obtain ⟨depth, h⟩ := htarget.hasDepth
    exact .of_succ depth fun supply room => reads_decrement (h supply room) ht

theorem Operation.hasDepth {level : Nat} {ts : List Token} {e : Expr} :
    Operation level ts e → HasDepth (.operation level) ts e (Fits level)
  | .chain hlevel hfirst hlinks => by
    obtain ⟨depth, h⟩ := hfirst.hasDepth
    obtain ⟨depth', h'⟩ := hlinks.hasDepth
    refine .of_succ (max depth depth') fun supply room => ?_
    rw [phrase, if_pos hlevel, chain]
    exact ((h supply room).bind (h' supply room supply (Nat.le_refl _)) fun rest =>
      hlinks.fits).congr Nat.max_le
  | .signed hlevel hmarks hprimary => by
    obtain ⟨depth, h⟩ := hprimary.hasDepth
    have hsigned : HasDepth .signed _ _ (Fits level) := .of_succ depth fun supply room =>
      reads_signed hmarks hprimary ((h supply room).mono (Nat.le_refl _) fun _ => Fits.levels)
    refine hsigned.of_eq fun supply room => ?_
    rw [phrase, if_neg (Nat.not_lt.2 hlevel)]

theorem Links.hasDepth {level : Nat} {left e : Expr} {ts : List Token} :
    Links level left ts e → ∃ depth, ∀ supply room bound, bound ≤ supply →
      Reads (links level (phrase supply room (.operation (level + 1))) bound left) bound
        (depth ≤ room) ts e (Fits level)
  | .nil => ⟨0, fun supply room bound _ =>
      (reads_links_nil level _ left).congr (by simp)⟩
  | .cons ht hop hoperand hrest => by
    obtain ⟨depth, h⟩ := hoperand.hasDepth
    obtain ⟨depth', h'⟩ := hrest.hasDepth
    refine ⟨max depth depth', fun supply room bound hbound => ?_⟩
    cases bound with
    | zero => exact .zero
    | succ bound =>
      have hle : bound ≤ supply := Nat.le_of_succ_le hbound
      exact (reads_links_cons ht hop ((h supply room).mono hle fun _ hrest => hrest)
        (h' supply room bound hle) fun rest => hrest.fits).congr Nat.max_le

theorem Primary.hasDepth {ts : List Token} {e : Expr} :
    Primary ts e → HasDepth .primary ts e (Fits BinaryOp.levels)
  | .number ht hvalue => .of_succ 0 fun supply room =>
      (reads_number ht hvalue _).congr (by simp)
  | .name ht => .of_succ 0 fun supply room => (reads_name ht _).congr (by simp)
  | .callWithout ht hbra hket => .of_succ 0 fun supply room =>
      (reads_call ht hbra (reads_arguments_none hket _)).congr (by simp)
  | .call ht hbra harguments => by
    obtain ⟨depth, h⟩ := harguments.hasDepth
    refine .of_succ depth fun supply room => reads_call ht hbra ?_
    refine reads_arguments_some harguments.begins ?_
    exact (h supply room supply [] (Nat.le_refl _)).mono (Nat.le_refl _) fun _ _ => trivial
  | .bracketed hbra hexpression hket => by
    have hwrapped : HasDepth .expression _ _ Closes := hexpression.hasDepth.of_eq fun _ _ => rfl
    obtain ⟨depth, h⟩ := hwrapped
    exact .of_succ depth fun supply room => reads_bracketed _ hbra (h supply room) hket

theorem ArgumentList.hasDepth {ts : List Token} {es : List Expr} :
    ArgumentList ts es → ∃ depth, ∀ supply room bound read, bound ≤ supply →
      Reads (moreArguments (phrase supply room .argument) bound read) bound (depth ≤ room) ts
        (read.reverse ++ es) fun _ => True
  | .last hexpression hket => by
    have hwrapped : HasDepth .expression _ _ Closes := hexpression.hasDepth.of_eq fun _ _ => rfl
    have hargument : HasDepth .argument _ _ Closes := hwrapped.of_eq fun _ _ => rfl
    obtain ⟨depth, h⟩ := hargument
    refine ⟨depth, fun supply room bound read hbound => ?_⟩
    cases bound with
    | zero => exact .zero
    | succ bound =>
      exact reads_moreArguments_last ((h supply room).mono hbound fun _ hrest => hrest) hket
  | .next hexpression ht hmore => by
    have hwrapped : HasDepth .expression _ _ Closes := hexpression.hasDepth.of_eq fun _ _ => rfl
    have hargument : HasDepth .argument _ _ Closes := hwrapped.of_eq fun _ _ => rfl
    obtain ⟨depth, h⟩ := hargument
    obtain ⟨depth', h'⟩ := hmore.hasDepth
    refine ⟨max depth depth', fun supply room bound read hbound => ?_⟩
    cases bound with
    | zero => exact .zero
    | succ bound =>
      exact (reads_moreArguments_next ((h supply room).mono hbound fun _ hrest => hrest) ht
        (h' supply room bound _ (Nat.le_of_succ_le hbound))).congr Nat.max_le

end

end Grammar

/-! ## Lines -/

namespace Reader

theorem yields_exitCommand_none {feed : Feed} {t : Token} {rest : List Token}
    (hfeed : feed.remaining = t :: rest)
    (hno : isWord exitWords t = true → ∃ u more, rest = u :: more ∧ u.kind ≠ .newline) :
    Yields exitCommand feed True none (t :: rest) := by
  unfold exitCommand
  by_cases hword : isWord exitWords t = true
  · -- two tokens are drawn, and both are handed back
    obtain ⟨u, more, rfl, hu⟩ := hno hword
    refine (Yields.draw hfeed).bind_of_true fun after hquiet hafter => ?_
    simp only [hword, if_true]
    refine Yields.peek_bind (Reader.handBack t >>= fun _ => pure none) hafter ?_
      fun after' hquiet' hafter' => ?_
    · simp only [hu, if_false]
    · rw [← hafter']
      exact .handBack_pure t after' none
  · refine Yields.peek_bind (pure none) hfeed ?_ fun after hquiet hafter => ?_
    · simp only [hword, Bool.false_eq_true, if_false]
    · exact .of_ok rfl (.refl after) hafter

theorem yields_deleteCommand_none {feed : Feed} {t : Token} {rest : List Token}
    (hfeed : feed.remaining = t :: rest) (hend : rest = [] → feed.fault = none)
    (hno : isWord deleteWords t = true → ∀ u ∈ rest.head?, u.kind ≠ .identifier) :
    Yields deleteCommand feed True none (t :: rest) := by
  unfold deleteCommand
  by_cases hword : isWord deleteWords t = true
  · refine (Yields.draw hfeed).bind_of_true fun after hquiet hafter => ?_
    simp only [hword, if_true]
    cases rest with
    | nil =>
      have hnil := Yields.draw_nil hafter (hquiet.fault.trans (hend rfl))
      refine hnil.bind_of_true fun after' hquiet' hafter' => ?_
      rw [← hafter']
      exact .handBack_pure t after' none
    | cons u more =>
      refine Yields.peek_bind (Reader.handBack t >>= fun _ => pure none) hafter ?_
        fun after' hquiet' hafter' => ?_
      · simp only [hno hword u rfl, if_false]
      · rw [← hafter']
        exact .handBack_pure t after' none
  · refine Yields.peek_bind (pure none) hfeed ?_ fun after hquiet hafter => ?_
    · simp only [hword, Bool.false_eq_true, if_false]
    · exact .of_ok rfl (.refl after) hafter

theorem reads_exitCommand {t : Token} (ht : isWord exitWords t = true) (supply : Nat) :
    Reads exitCommand supply True [t] (some .exit) Feed.AtEnd := by
  unfold exitCommand
  refine .draw_bind ?_ (Nat.le_succ supply)
  simp only [ht, if_true]
  refine .peek_end rfl fun u rest hrest => ?_
  simp only [hrest u rfl, if_true]

theorem reads_deleteCommand {t name : Token} (ht : isWord deleteWords t = true)
    (hname : name.kind = .identifier) (supply : Nat) (F : List Token → Prop) :
    Reads deleteCommand supply True [t, name] (some (.delete name.lexeme)) F := by
  unfold deleteCommand
  refine .draw_bind ?_ (Nat.le_succ supply)
  simp only [ht, if_true]
  refine .draw_bind ?_ (Nat.le_succ supply)
  simp only [hname, if_true]
  exact .pure _

/-- An expression is no command. -/
theorem yields_command_none {ts rest : List Token} {e : Expr} (h : Expression ts e)
    (halone : ∀ t, ts = [t] → isWord exitWords t = false) {feed : Feed}
    (hfeed : feed.remaining = ts ++ rest) (hend : rest = [] → feed.fault = none)
    (hrest : Feed.AtEnd rest) : Yields command feed True none (ts ++ rest) := by
  obtain ⟨t, more, rfl, -, hname⟩ := h.begins
  have hexit : Yields exitCommand feed True none (t :: more ++ rest) := by
    refine yields_exitCommand_none hfeed fun hword => ?_
    cases more with
    | nil => exact absurd hword (by simp [halone t rfl])
    | cons u more =>
      exact ⟨u, more ++ rest, rfl, h.newline_notMem u (by simp)⟩
  unfold command
  refine hexit.bind_of_true fun after hquiet hafter => ?_
  refine yields_deleteCommand_none hafter (fun hnil => ?_) fun hword u hu => ?_
  · exact hquiet.fault.trans (hend (List.append_eq_nil_iff.1 hnil).2)
  · cases more with
    | nil => simp [hrest u hu]
    | cons v more => exact hname (isWord_kind hword) u hu

/-- The end of a line is read as such. -/
theorem yields_ending (l : Line) {feed : Feed} (hends : Feed.EndsLine feed.remaining feed.fault)
    (hfailed : feed.failed = false) : Yields (ending l) feed True l feed.remaining.tail := by
  have hsound : ∀ after : Feed, feed.Quietly after → after.remaining = feed.remaining.tail →
      Yields (soundSource >>= fun _ => pure l) after True l feed.remaining.tail := by
    intro after hquiet hafter
    have hok : soundSource after = .ok () after := by
      unfold soundSource
      rw [hquiet.failed, hfailed]
      rfl
    exact .of_ok (bind_of_ok hok) (.refl after) hafter
  have hend : Yields endOfLine feed True () feed.remaining.tail := by
    unfold endOfLine
    rcases hends with ⟨hnil, hfault⟩ | ⟨t, later, hnewline, ht⟩
    · refine (Yields.draw_nil hnil hfault).bind_of_true fun after hquiet hafter => ?_
      rw [hnil]
      exact .of_ok rfl (.refl after) hafter
    · refine (Yields.draw hnewline).bind_of_true fun after hquiet hafter => ?_
      rw [hnewline]
      simp only [ht, if_true]
      exact .of_ok rfl (.refl after) hafter
  unfold ending
  exact hend.bind_of_true hsound

end Reader

open Reader

namespace Grammar

/-- What is read as an expression is read as a line that is one. -/
theorem reads_content {supply room : Nat} {p : Prop} {ts : List Token} {e : Expr}
    (hexpression : Expression ts e) (halone : ∀ t, ts = [t] → isWord exitWords t = false)
    (h : Reads (phrase supply room .expression) supply p ts e Closes) :
    Reads (content supply room) supply p ts (.expression e) Feed.AtEnd := by
  intro feed rest hfeed hend hrest hlength
  have hcommand := yields_command_none hexpression halone hfeed hend hrest
  unfold content
  refine hcommand.bind_of_true fun after hquiet hafter => ?_
  have hphrase : Reads (do
      let e ← phrase supply room .expression
      pure (Line.expression e)) supply p ts _ Closes := h.bind_pure rfl
  refine hphrase after rest hafter (fun hnil => hquiet.fault.trans (hend hnil)) ?_ ?_
  · exact fun u hu => Or.inl (hrest u hu)
  · rw [hafter, ← hfeed]
    exact hlength

/-- A line has a depth too, which is that of its expression. -/
theorem WholeLine.hasDepth {ts : List Token} {l : Line} (h : WholeLine ts l) :
    ∃ depth, ∀ supply room,
      Reads (content supply room) supply (depth ≤ room) ts l Feed.AtEnd := by
  cases h with
  | exit ht =>
    refine ⟨0, fun supply room => ?_⟩
    have hcommand : Reads command supply True _ (some .exit) Feed.AtEnd :=
      (reads_exitCommand ht supply).bind_pure rfl
    refine Reads.congr (p := True) (hcommand.bind_pure rfl) ?_
    simp
  | @delete t name ht hname =>
    refine ⟨0, fun supply room => ?_⟩
    have hcommand : Reads command supply True [t, name] (some (.delete name.lexeme))
        Feed.AtEnd := by
      intro feed rest hfeed hend hrest hlength
      have hexit : Yields exitCommand feed True none (t :: name :: rest) :=
        yields_exitCommand_none hfeed fun _ => ⟨name, rest, rfl, by simp [hname]⟩
      refine hexit.bind_of_true fun after hquiet hafter => ?_
      refine reads_deleteCommand ht hname supply Feed.AtEnd after rest hafter
        (fun hnil => hquiet.fault.trans (hend hnil)) hrest ?_
      rw [hafter]
      rw [hfeed] at hlength
      exact hlength
    refine Reads.congr (p := True) (hcommand.bind_pure rfl) ?_
    simp
  | expression hexpression halone =>
    obtain ⟨depth, h⟩ : HasDepth .expression ts _ Closes :=
      hexpression.hasDepth.of_eq fun _ _ => rfl
    exact ⟨depth, fun supply room => reads_content hexpression halone (h supply room)⟩

/-- Behind what a line says its end is read. -/
theorem yields_line_of_content {supply room : Nat} {p : Prop} {ts rest : List Token} {l : Line}
    {feed : Feed} (h : Reads (content supply room) supply p ts l Feed.AtEnd)
    (hfeed : feed.remaining = ts ++ rest) (hends : Feed.EndsLine rest feed.fault)
    (hfailed : feed.failed = false) (hlength : feed.remaining.length < supply) :
    Yields (line supply room) feed p l rest.tail := by
  rw [line_eq]
  have hcontent := h feed rest hfeed hends.fault_eq_none hends.atEnd hlength
  refine (hcontent.bind fun after hquiet hafter => ?_).congr (by rw [and_true])
  rw [← hafter] at hends ⊢
  exact yields_ending l (hquiet.fault ▸ hends) (hquiet.failed.trans hfailed)

/-- **A line of the grammar is read as what it says if there is room for its depth, and
refused for want of room if not.** -/
theorem WholeLine.yields_line {ts : List Token} {l : Line} (h : WholeLine ts l) :
    ∃ depth, ∀ (supply room : Nat) (feed : Feed) (rest : List Token),
      feed.remaining = ts ++ rest → Feed.EndsLine rest feed.fault → feed.failed = false →
      feed.remaining.length < supply →
        Yields (line supply room) feed (depth ≤ room) l rest.tail := by
  obtain ⟨depth, hreads⟩ := h.hasDepth
  exact ⟨depth, fun supply room feed rest hfeed hends hfailed hlength =>
    yields_line_of_content (hreads supply room) hfeed hends hfailed hlength⟩

end Grammar

end LineCalculator
