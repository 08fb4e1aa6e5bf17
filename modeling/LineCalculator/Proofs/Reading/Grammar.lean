import Mathlib.Data.List.Forall2
import LineCalculator.Syntax.Parse

/-!
# The grammar of lines

Which lists of tokens are lines, and what each of them says.  The grammar is given
by rules alone and knows of no feed, no room and no order in which anything is
tried.

    line       ::=  "exit" | "quit" | "delete" name | expression
    expression ::=  target "=" expression  |  target compound expression
                 |  target "++"  |  target "--"  |  operation 0
    operation l ::= operation (l + 1) (operator of level l, operation (l + 1))*
    operation 7 ::= ("-" | "!")* primary
    primary    ::=  number  |  name  |  name "(" ")"
                 |  name "(" expression ("," expression)* ")"
                 |  "(" expression ")"

## What a target is

A target is an operation of the loosest level that says a name and nothing else.
Brackets leave no trace in what a phrase says, so `(x)` is a target as well as
`x` is.

## What a phrase can begin with

No phrase begins with a closing bracket, and none begins with two names
(`Expression.begins`).  The first tells a call without arguments from a call with
some, the second the request to forget a variable from an expression.
-/

namespace LineCalculator

theorem Reader.isWord_kind {words : List String} {t : Token} (h : isWord words t = true) :
    t.kind = .identifier := by
  simpa using (Bool.and_eq_true_iff.1 h).1

namespace Grammar

mutual

/-- An expression: an operation, or a target and what is done to it. -/
inductive Expression : List Token → Expr → Prop
  | operation {ts : List Token} {e : Expr} (hoperation : Operation 0 ts e) : Expression ts e
  | assign {target value : List Token} {t : Token} {x : String} {e : Expr}
      (htarget : Operation 0 target (.var x)) (ht : t.kind = .equals)
      (hvalue : Expression value e) : Expression (target ++ t :: value) (.assign x e)
  | update {target value : List Token} {t : Token} {x : String} {op : BinaryOp} {e : Expr}
      (htarget : Operation 0 target (.var x)) (ht : t.kind = .compound op)
      (hvalue : Expression value e) :
      Expression (target ++ t :: value) (.assign x (.binary op (.var x) e))
  | increment {target : List Token} {t : Token} {x : String}
      (htarget : Operation 0 target (.var x)) (ht : t.kind = .increment) :
      Expression (target ++ [t]) (.assign x (.binary .add (.var x) (.literal Binary64.one)))
  | decrement {target : List Token} {t : Token} {x : String}
      (htarget : Operation 0 target (.var x)) (ht : t.kind = .decrement) :
      Expression (target ++ [t]) (.assign x (.binary .subtract (.var x) (.literal Binary64.one)))

/-- An operation of a level: operands with operators of the level between them, or
behind the last level an operand with its signs. -/
inductive Operation : Nat → List Token → Expr → Prop
  | chain {level : Nat} {first links : List Token} {a e : Expr}
      (hlevel : level < BinaryOp.levels) (hfirst : Operation (level + 1) first a)
      (hlinks : Links level a links e) : Operation level (first ++ links) e
  | signed {level : Nat} {marks ts : List Token} {ops : List UnaryOp} {e : Expr}
      (hlevel : BinaryOp.levels ≤ level)
      (hmarks : List.Forall₂ (fun t op => t.kind.unary? = some op) marks ops)
      (hprimary : Primary ts e) : Operation level (marks ++ ts) (ops.foldr .unary e)

/-- The rest of a run of operators of a level, with the expression that the run has
come to so far. -/
inductive Links : Nat → Expr → List Token → Expr → Prop
  | nil {level : Nat} {left : Expr} : Links level left [] left
  | cons {level : Nat} {t : Token} {op : BinaryOp} {operand rest : List Token}
      {left right e : Expr} (ht : t.kind = .operator op) (hop : op.level = level)
      (hoperand : Operation (level + 1) operand right)
      (hrest : Links level (.binary op left right) rest e) :
      Links level left (t :: (operand ++ rest)) e

/-- An operand. -/
inductive Primary : List Token → Expr → Prop
  | number {t : Token} {value : Binary64} (ht : t.kind = .number)
      (hvalue : t.value? = some value) : Primary [t] (.literal value)
  | name {t : Token} (ht : t.kind = .identifier) : Primary [t] (.var t.lexeme)
  | callWithout {t bra ket : Token} (ht : t.kind = .identifier)
      (hbra : bra.kind = .openBracket) (hket : ket.kind = .closeBracket) :
      Primary [t, bra, ket] (.call t.lexeme [])
  | call {t bra : Token} {ts : List Token} {es : List Expr} (ht : t.kind = .identifier)
      (hbra : bra.kind = .openBracket) (harguments : ArgumentList ts es) :
      Primary (t :: bra :: ts) (.call t.lexeme es)
  | bracketed {bra ket : Token} {ts : List Token} {e : Expr} (hbra : bra.kind = .openBracket)
      (hexpression : Expression ts e) (hket : ket.kind = .closeBracket) :
      Primary (bra :: (ts ++ [ket])) e

/-- One argument or more, up to and with the closing bracket. -/
inductive ArgumentList : List Token → List Expr → Prop
  | last {ts : List Token} {e : Expr} {ket : Token} (hexpression : Expression ts e)
      (hket : ket.kind = .closeBracket) : ArgumentList (ts ++ [ket]) [e]
  | next {ts more : List Token} {e : Expr} {es : List Expr} {t : Token}
      (hexpression : Expression ts e) (ht : t.kind = .comma) (hmore : ArgumentList more es) :
      ArgumentList (ts ++ t :: more) (e :: es)

end

/-- A line.  A name that ends a session is an expression only in company. -/
inductive WholeLine : List Token → Line → Prop
  | exit {t : Token} (ht : Reader.isWord Reader.exitWords t = true) : WholeLine [t] .exit
  | delete {t name : Token} (ht : Reader.isWord Reader.deleteWords t = true)
      (hname : name.kind = .identifier) : WholeLine [t, name] (.delete name.lexeme)
  | expression {ts : List Token} {e : Expr} (hexpression : Expression ts e)
      (halone : ∀ t, ts = [t] → Reader.isWord Reader.exitWords t = false) :
      WholeLine ts (.expression e)

/-- Behind the last level there are no more levels. -/
theorem Operation.of_levels_le {level : Nat} {ts : List Token} {e : Expr}
    (h : Operation BinaryOp.levels ts e) (hlevel : BinaryOp.levels ≤ level) :
    Operation level ts e := by
  cases h with
  | chain hlt hfirst hlinks => exact absurd hlt (Nat.lt_irrefl _)
  | signed _ hmarks hprimary => exact .signed hlevel hmarks hprimary

/-- An operand alone is an operation of every level. -/
theorem Operation.of_primary {ts : List Token} {e : Expr} (h : Primary ts e) (level : Nat) :
    Operation level ts e := by
  induction hn : BinaryOp.levels - level generalizing level with
  | zero => exact .signed (by omega) .nil h
  | succ n ih =>
    have hchain := Operation.chain (by omega) (ih (level + 1) (by omega)) .nil
    rwa [List.append_nil] at hchain

/-! ## What a phrase can begin with -/

/-- Some tokens begin with one that closes no bracket, and not with two names. -/
def Begins (ts : List Token) : Prop :=
  ∃ t rest, ts = t :: rest ∧ t.kind ≠ .closeBracket ∧
    (t.kind = .identifier → ∀ u ∈ rest.head?, u.kind ≠ .identifier)

theorem Begins.append {ts us : List Token} (h : Begins ts)
    (hus : ∀ u ∈ us.head?, u.kind ≠ .identifier) : Begins (ts ++ us) := by
  obtain ⟨t, rest, rfl, hclose, hname⟩ := h
  refine ⟨t, rest ++ us, rfl, hclose, fun ht u hu => ?_⟩
  cases rest with
  | nil => exact hus u hu
  | cons v rest => exact hname ht u hu

theorem Primary.begins {ts : List Token} {e : Expr} (h : Primary ts e) : Begins ts := by
  cases h with
  | number ht hvalue => exact ⟨_, _, rfl, by simp [ht], by simp⟩
  | name ht => exact ⟨_, _, rfl, by simp [ht], by simp⟩
  | callWithout ht hbra hket => exact ⟨_, _, rfl, by simp [ht], by simp [hbra]⟩
  | call ht hbra harguments => exact ⟨_, _, rfl, by simp [ht], by simp [hbra]⟩
  | bracketed hbra hexpression hket => exact ⟨_, _, rfl, by simp [hbra], by simp [hbra]⟩

theorem Primary.unary?_head {ts : List Token} {e : Expr} (h : Primary ts e) :
    ∃ t rest, ts = t :: rest ∧ t.kind.unary? = none := by
  cases h with
  | number ht hvalue => exact ⟨_, _, rfl, by simp [ht, TokenKind.unary?]⟩
  | name ht => exact ⟨_, _, rfl, by simp [ht, TokenKind.unary?]⟩
  | callWithout ht hbra hket => exact ⟨_, _, rfl, by simp [ht, TokenKind.unary?]⟩
  | call ht hbra harguments => exact ⟨_, _, rfl, by simp [ht, TokenKind.unary?]⟩
  | bracketed hbra hexpression hket => exact ⟨_, _, rfl, by simp [hbra, TokenKind.unary?]⟩

theorem Links.head_ne_identifier {level : Nat} {left e : Expr} {ts : List Token}
    (h : Links level left ts e) : ∀ u ∈ ts.head?, u.kind ≠ .identifier := by
  cases h with
  | nil => simp
  | cons ht hop hoperand hrest => simp [ht]

theorem Begins.of_marks {marks ts : List Token} {ops : List UnaryOp}
    (hmarks : List.Forall₂ (fun t op => t.kind.unary? = some op) marks ops) (hts : Begins ts) :
    Begins (marks ++ ts) := by
  cases hmarks with
  | nil => exact hts
  | @cons t op marks ops hop hmore =>
    refine ⟨t, marks ++ ts, rfl, ?_, ?_⟩
    · intro hclose
      simp [hclose, TokenKind.unary?] at hop
    · intro hname
      simp [hname, TokenKind.unary?] at hop

theorem Operation.begins {level : Nat} {ts : List Token} {e : Expr} :
    Operation level ts e → Begins ts
  | .chain _ hfirst hlinks => hfirst.begins.append hlinks.head_ne_identifier
  | .signed _ hmarks hprimary => Begins.of_marks hmarks hprimary.begins

theorem Expression.begins {ts : List Token} {e : Expr} (h : Expression ts e) : Begins ts := by
  cases h with
  | operation hoperation => exact hoperation.begins
  | assign htarget ht hvalue => exact htarget.begins.append (by simp [ht])
  | update htarget ht hvalue => exact htarget.begins.append (by simp [ht])
  | increment htarget ht => exact htarget.begins.append (by simp [ht])
  | decrement htarget ht => exact htarget.begins.append (by simp [ht])

theorem ArgumentList.begins {ts : List Token} {es : List Expr} (h : ArgumentList ts es) :
    Begins ts := by
  cases h with
  | last hexpression hket => exact hexpression.begins.append (by simp [hket])
  | next hexpression ht hmore => exact hexpression.begins.append (by simp [ht])

/-! ## A phrase stays on its line -/

theorem newline_notMem_marks {marks : List Token} {ops : List UnaryOp}
    (hmarks : List.Forall₂ (fun t op => t.kind.unary? = some op) marks ops) :
    ∀ t ∈ marks, t.kind ≠ .newline := by
  induction hmarks with
  | nil => simp
  | @cons t op marks ops hop hmore ih =>
    rintro u hu hnewline
    rcases List.mem_cons.1 hu with rfl | hu
    · simp [hnewline, TokenKind.unary?] at hop
    · exact ih u hu hnewline

mutual

theorem Expression.newline_notMem {ts : List Token} {e : Expr} :
    Expression ts e → ∀ t ∈ ts, t.kind ≠ .newline
  | .operation hoperation => hoperation.newline_notMem
  | .assign htarget ht hvalue => by
    simpa [or_imp, forall_and, ht] using ⟨htarget.newline_notMem, hvalue.newline_notMem⟩
  | .update htarget ht hvalue => by
    simpa [or_imp, forall_and, ht] using ⟨htarget.newline_notMem, hvalue.newline_notMem⟩
  | .increment htarget ht => by
    simpa [or_imp, forall_and, ht] using htarget.newline_notMem
  | .decrement htarget ht => by
    simpa [or_imp, forall_and, ht] using htarget.newline_notMem

theorem Operation.newline_notMem {level : Nat} {ts : List Token} {e : Expr} :
    Operation level ts e → ∀ t ∈ ts, t.kind ≠ .newline
  | .chain _ hfirst hlinks => by
    simpa [or_imp, forall_and] using ⟨hfirst.newline_notMem, hlinks.newline_notMem⟩
  | .signed _ hmarks hprimary => by
    simpa [or_imp, forall_and] using ⟨newline_notMem_marks hmarks, hprimary.newline_notMem⟩

theorem Links.newline_notMem {level : Nat} {left e : Expr} {ts : List Token} :
    Links level left ts e → ∀ t ∈ ts, t.kind ≠ .newline
  | .nil => by simp
  | .cons ht _ hoperand hrest => by
    simpa [or_imp, forall_and, ht] using ⟨hoperand.newline_notMem, hrest.newline_notMem⟩

theorem Primary.newline_notMem {ts : List Token} {e : Expr} :
    Primary ts e → ∀ t ∈ ts, t.kind ≠ .newline
  | .number ht _ => by simp [ht]
  | .name ht => by simp [ht]
  | .callWithout ht hbra hket => by simp [ht, hbra, hket]
  | .call ht hbra harguments => by simpa [ht, hbra] using harguments.newline_notMem
  | .bracketed hbra hexpression hket => by
    simpa [or_imp, forall_and, hbra, hket] using hexpression.newline_notMem

theorem ArgumentList.newline_notMem {ts : List Token} {es : List Expr} :
    ArgumentList ts es → ∀ t ∈ ts, t.kind ≠ .newline
  | .last hexpression hket => by
    simpa [or_imp, forall_and, hket] using hexpression.newline_notMem
  | .next hexpression ht hmore => by
    simpa [or_imp, forall_and, ht] using ⟨hexpression.newline_notMem, hmore.newline_notMem⟩

end

theorem WholeLine.newline_notMem {ts : List Token} {l : Line} (h : WholeLine ts l) :
    ∀ t ∈ ts, t.kind ≠ .newline := by
  cases h with
  | exit ht => simp [Reader.isWord_kind ht]
  | delete ht hname => simp [Reader.isWord_kind ht, hname]
  | expression hexpression halone => exact hexpression.newline_notMem

end Grammar

end LineCalculator
