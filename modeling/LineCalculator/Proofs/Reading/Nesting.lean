import LineCalculator.Proofs.Reading.Diagnostics
import LineCalculator.Proofs.Reading.FlatText

/-!
# Texts that nest too deeply

Each phrase takes one unit of the room of the phrase around it, and a text can begin so that
phrases nest from its first token on: with brackets, of which each is the operand of the
expression around it, or with assignments, of which each is the value of the one before.  A text
that begins with enough of them is refused for want of room, and nothing else is reported of it.

What stands behind the beginning has no say in that, because it is not read.  So the lemmas here
speak of the beginning of the tokens alone (`Opening`, `Giving`), and the readers that draw the
rest of the tokens are never asked (`Reader.Overflows.bind`).

## The limits of depth

`depth_limits_nesting_only` puts these texts beside those in which nothing nests, and beside
the expressions for which the evaluator has no room.  Brackets take the whole way from an
expression to an operand each time, assignments one unit each.
-/

namespace LineCalculator

/-! ## Beginnings of tokens -/

/-- Tokens begin with so many opening brackets. -/
inductive Opening : Nat → List Token → Prop
  | any (ts : List Token) : Opening 0 ts
  | bracket {n : Nat} {t : Token} {ts : List Token} (ht : t.kind = .openBracket)
      (h : Opening n ts) : Opening (n + 1) (t :: ts)

/-- Tokens begin with so many names and, behind each, the sign that gives it a value. -/
inductive Giving : Nat → List Token → Prop
  | any (ts : List Token) : Giving 0 ts
  | value {n : Nat} {name sign : Token} {ts : List Token} (hname : name.kind = .identifier)
      (hsign : sign.kind = .equals) (h : Giving n ts) : Giving (n + 1) (name :: sign :: ts)

theorem Opening.exists_bracket {n : Nat} {ts : List Token} (h : Opening (n + 1) ts) :
    ∃ t rest, ts = t :: rest ∧ t.kind = .openBracket ∧ Opening n rest := by
  cases h with
  | bracket ht h => exact ⟨_, _, rfl, ht, h⟩

theorem Giving.exists_value {n : Nat} {ts : List Token} (h : Giving (n + 1) ts) :
    ∃ name sign rest, ts = name :: sign :: rest ∧ name.kind = .identifier ∧
      sign.kind = .equals ∧ Giving n rest := by
  cases h with
  | value hname hsign h => exact ⟨_, _, _, rfl, hname, hsign, h⟩

namespace Reader

variable {α β : Type} {feed : Feed}

/-! ## Refusal for want of room -/

/-- A reader refuses for want of room and reports nothing. -/
def Overflows (reader : Reader α) (feed : Feed) : Prop :=
  ∃ after, reader feed = .error .tooDeep after ∧ feed.Quietly after

theorem overflows_overflow (feed : Feed) : Overflows (overflow : Reader α) feed :=
  ⟨feed, rfl, .refl feed⟩

theorem Overflows.bind {reader : Reader α} (h : Overflows reader feed) (next : α → Reader β) :
    Overflows (reader >>= next) feed := by
  obtain ⟨after, hread, hquiet⟩ := h
  exact ⟨after, bind_of_error hread, hquiet⟩

/-- Whether there is room for the first of two readers makes no difference if there is none for
the second. -/
theorem Yields.bind_overflows {reader : Reader α} {next : α → Reader β} {p : Prop} {a : α}
    {mid : List Token} (h : Yields reader feed p a mid)
    (hnext : ∀ after, feed.Quietly after → after.remaining = mid → Overflows (next a) after) :
    Overflows (reader >>= next) feed := by
  by_cases hp : p
  · obtain ⟨after, hread, hquiet, hmid⟩ := h.ok hp
    obtain ⟨last, hover, hquiet'⟩ := hnext after hquiet hmid
    exact ⟨last, (bind_of_ok hread).trans hover, hquiet.trans hquiet'⟩
  · exact Overflows.bind (h.tooDeep hp) next

/-! ## Brackets -/

theorem primary_overflows {bracketed : Reader Expr} (callArguments : Reader (List Expr))
    {t : Token} {rest : List Token} (ht : t.kind = .openBracket)
    (hfeed : feed.remaining = t :: rest)
    (h : ∀ after, feed.Quietly after → after.remaining = rest → Overflows bracketed after) :
    Overflows (primary bracketed callArguments) feed := by
  unfold primary expect
  rw [bind_assoc]
  refine (Yields.draw hfeed).bind_overflows fun after hquiet hafter => ?_
  simp only [pure_bind, ht]
  exact (h after hquiet hafter).bind _

/-- No sign stands before an opening bracket. -/
theorem signed_overflows {supply : Nat} {operand : Reader Expr} {t : Token} {rest : List Token}
    (ht : t.kind = .openBracket) (hfeed : feed.remaining = t :: rest)
    (hlength : feed.remaining.length < supply)
    (h : ∀ after, feed.Quietly after → after.remaining = t :: rest → Overflows operand after) :
    Overflows (signed supply operand) feed := by
  have hsigns : Yields (signs supply []) feed True [] (t :: rest) :=
    reads_signs .nil [] feed (t :: rest) hfeed (by simp)
      ⟨t, rest, rfl, by simp [ht, TokenKind.unary?]⟩ hlength
  unfold signed
  exact hsigns.bind_overflows fun after hquiet hafter => (h after hquiet hafter).bind _

/-- Below an expression there is room wanting only where a bracket stands. -/
theorem exists_eq_succ_of_descent {kind : Phrase} {room n : Nat}
    (hkind : kind.descent ≤ Phrase.expression.descent)
    (h : room + 1 + Phrase.expression.descent ≤
      kind.descent + Phrase.expression.descent * n) : ∃ m, n = m + 1 := by
  refine Nat.exists_eq_succ_of_ne_zero ?_
  rintro rfl
  omega

/-- **There is no room for brackets if each takes the way from an expression to an operand.** -/
theorem phrase_overflows_of_opening {supply room n : Nat} {kind : Phrase}
    (hopening : Opening n feed.remaining) (hlength : feed.remaining.length < supply)
    (h : room + Phrase.expression.descent ≤ kind.descent + Phrase.expression.descent * n) :
    Overflows (phrase supply room kind) feed := by
  induction room generalizing kind n feed with
  | zero => exact overflows_overflow feed
  | succ room ih =>
    -- a phrase that is another one leaves the brackets as they are
    have hsame : ∀ kind' : Phrase, kind.descent = kind'.descent + 1 →
        Overflows (phrase supply room kind') feed := fun kind' hkind =>
      ih hopening hlength (by omega)
    cases kind with
    | expression => exact hsame .assignment rfl
    | argument => exact hsame .expression rfl
    | assignment => exact Overflows.bind (hsame (.operation 0) rfl) _
    | operation level =>
      rw [phrase]
      split
      case isTrue hlevel =>
        refine Overflows.bind (hsame (.operation (level + 1)) ?_) _
        simp only [Phrase.descent]
        omega
      case isFalse hlevel =>
        refine hsame .signed ?_
        simp only [Phrase.descent]
        omega
    | signed =>
      obtain ⟨n, rfl⟩ := exists_eq_succ_of_descent (by decide) h
      obtain ⟨t, rest, hfeed, ht, -⟩ := hopening.exists_bracket
      refine signed_overflows ht hfeed hlength fun after hquiet hafter => ?_
      rw [← hfeed] at hafter
      refine ih (hafter ▸ hopening) (hafter ▸ hlength) ?_
      simp only [Phrase.descent] at h ⊢
      omega
    | primary =>
      obtain ⟨n, rfl⟩ := exists_eq_succ_of_descent (by decide) h
      obtain ⟨t, rest, hfeed, ht, hmore⟩ := hopening.exists_bracket
      refine primary_overflows _ ht hfeed fun after hquiet hafter => ?_
      refine ih (hafter ▸ hmore) ?_ ?_
      · rw [hafter]
        rw [hfeed, List.length_cons] at hlength
        omega
      · simp only [Phrase.descent, Nat.mul_add] at h ⊢
        omega

/-! ## Assignments -/

/-- **There is no room for assignments if each takes one unit.** -/
theorem phrase_overflows_of_giving {supply room n : Nat} (hgiving : Giving n feed.remaining)
    (hlength : feed.remaining.length < supply) (h : room ≤ n) :
    Overflows (phrase supply room .assignment) feed := by
  induction room generalizing n feed with
  | zero => exact overflows_overflow feed
  | succ room ih =>
    obtain ⟨n, rfl⟩ := Nat.exists_eq_add_of_lt (Nat.lt_of_lt_of_le (Nat.succ_pos room) h)
    rw [Nat.zero_add] at hgiving h
    obtain ⟨name, sign, rest, hfeed, hname, hsign, hmore⟩ := hgiving.exists_value
    have hfits : Fits 0 (sign :: rest) := .of_kind (by simp [hsign]) (by simp [hsign])
    obtain ⟨depth, hdepth⟩ := (Grammar.Operation.of_primary (.name hname) 0).hasDepth
    have htarget := hdepth supply room feed (sign :: rest) hfeed (by simp) hfits hlength
    rw [phrase, assignment]
    refine htarget.bind_overflows fun mid hquiet hmid => ?_
    refine (Yields.draw hmid).bind_overflows fun after hquiet' hafter => ?_
    simp only [hsign]
    refine Overflows.bind (ih (hafter ▸ hmore) ?_ (Nat.le_of_succ_le_succ h)) _
    rw [hafter]
    simp only [hfeed, List.length_cons] at hlength
    omega

/-! ## Lines -/

/-- A line is refused for want of room if the expression that it begins with is. -/
theorem line_overflows {supply room : Nat} {t : Token} {rest : List Token}
    (hfeed : feed.remaining = t :: rest) (hend : rest = [] → feed.fault = none)
    (hexit : isWord exitWords t = true → ∃ u more, rest = u :: more ∧ u.kind ≠ .newline)
    (hdelete : isWord deleteWords t = true → ∀ u ∈ rest.head?, u.kind ≠ .identifier)
    (h : ∀ after : Feed, after.remaining = t :: rest →
      Overflows (phrase supply room .expression) after) :
    Overflows (line supply room) feed := by
  rw [line_eq]
  refine Overflows.bind ?_ ending
  unfold content command
  rw [bind_assoc]
  refine (yields_exitCommand_none hfeed hexit).bind_overflows fun mid hquiet hmid => ?_
  have hend' : rest = [] → mid.fault = none := fun hnil => hquiet.fault.trans (hend hnil)
  refine (yields_deleteCommand_none hmid hend' hdelete).bind_overflows fun after _ hafter => ?_
  exact (h after hafter).bind _

end Reader

/-! ## Texts -/

namespace Scanner

/-- Opening brackets are scanned as such, whatever stands behind them. -/
theorem opening_iterate (n : Nat) (more : List Char) {s : Scanner}
    (h : s.rest = List.replicate n '(' ++ more) : Opening n s.iterate.1 := by
  induction n generalizing s with
  | zero => exact .any _
  | succ n ih =>
    have hdrop : s.rest.dropWhile Head.isSkipped = '(' :: (List.replicate n '(' ++ more) := by
      rw [h, List.replicate_succ, List.cons_append]
      exact List.dropWhile_cons_of_neg (by decide)
    rw [iterate_of_token (scan_of_token hdrop rfl)]
    exact .bracket rfl (ih rfl)

/-- What gives a variable a value is scanned as such, whatever the value is. -/
theorem giving_iterate (n : Nat) (more : List Char) {s : Scanner}
    (h : s.rest.dropWhile Head.isSkipped =
      ((List.replicate n "a = ".toList).flatten ++ more).dropWhile Head.isSkipped) :
    Giving n s.iterate.1 := by
  induction n generalizing s with
  | zero => exact .any _
  | succ n ih =>
    have hname : s.rest.dropWhile Head.isSkipped =
        'a' :: ' ' :: '=' :: ' ' :: ((List.replicate n "a = ".toList).flatten ++ more) := by
      rw [h, List.replicate_succ, List.flatten_cons]
      rfl
    rw [iterate_of_token (scan_of_token hname rfl)]
    rw [iterate_of_token (scan_of_token rfl rfl)]
    exact .value rfl rfl (ih rfl)

end Scanner

/-- A text that begins like another one so many times over. -/
def repeated (n : Nat) (text later : String) : String :=
  String.join (List.replicate n text) ++ later

theorem toList_repeated (n : Nat) (text later : String) :
    (repeated n text later).toList = (List.replicate n text.toList).flatten ++ later.toList := by
  unfold repeated
  rw [String.toList_append, String.toList_join, List.flatMap, List.map_replicate]

theorem opening_repeated (n : Nat) (later : String) :
    Opening n (Feed.ofText (repeated n "(" later)).remaining := by
  refine Scanner.opening_iterate n later.toList ?_
  show (repeated n "(" later).toList = _
  rw [toList_repeated]
  simp

theorem giving_repeated (n : Nat) (later : String) :
    Giving n (Feed.ofText (repeated n "a = " later)).remaining := by
  refine Scanner.giving_iterate n later.toList ?_
  exact congrArg (List.dropWhile Head.isSkipped) (toList_repeated n "a = " later)

/-- What is refused for want of room from the start has that one report. -/
theorem Reader.Overflows.parse_eq {text : String}
    (h : Overflows (line ((Feed.ofText text).remaining.length + 1) Parse.room) (Feed.ofText text)) :
    (parse text).line? = none ∧ (parse text).diagnostics = [.parse .tooDeep] := by
  obtain ⟨after, hread, hquiet⟩ := h
  rw [LineCalculator.parse_eq, hread]
  refine ⟨rfl, ?_⟩
  rw [Parse.diagnostics_ofResult_tooDeep, hquiet.diagnostics]
  rfl

/-- A text that begins with 82 opening brackets is nested too deeply. -/
theorem parse_repeated_bracket {n : Nat} (h : 82 ≤ n) (later : String) :
    (parse (repeated n "(" later)).line? = none ∧
      (parse (repeated n "(" later)).diagnostics = [.parse .tooDeep] := by
  have hopening := opening_repeated n later
  refine Reader.Overflows.parse_eq ?_
  generalize Feed.ofText (repeated n "(" later) = feed at hopening ⊢
  obtain ⟨n, rfl⟩ := Nat.exists_eq_add_of_le' (Nat.le_trans (by decide : 2 ≤ 82) h)
  obtain ⟨t, rest, hfeed, ht, hmore⟩ := hopening.exists_bracket
  obtain ⟨u, more, rfl, -, -⟩ := hmore.exists_bracket
  have hword : ∀ words, Reader.isWord words t = false := by simp [Reader.isWord, ht]
  refine Reader.line_overflows hfeed (by simp) (by simp [hword]) (by simp [hword])
    fun after hafter => ?_
  rw [← hfeed] at hafter
  refine Reader.phrase_overflows_of_opening (hafter ▸ hopening) (by rw [hafter]; omega) ?_
  simp only [Phrase.descent, BinaryOp.levels, Parse.room]
  omega

/-- A text that begins with 983 assignments is nested too deeply. -/
theorem parse_repeated_assignment {n : Nat} (h : 983 ≤ n) (later : String) :
    (parse (repeated n "a = " later)).line? = none ∧
      (parse (repeated n "a = " later)).diagnostics = [.parse .tooDeep] := by
  have hgiving := giving_repeated n later
  refine Reader.Overflows.parse_eq ?_
  generalize Feed.ofText (repeated n "a = " later) = feed at hgiving ⊢
  obtain ⟨n, rfl⟩ := Nat.exists_eq_add_of_le' (Nat.le_trans (by decide : 1 ≤ 983) h)
  obtain ⟨name, sign, rest, hfeed, hname, hsign, -⟩ := hgiving.exists_value
  refine Reader.line_overflows hfeed (by simp) (fun _ => ⟨sign, rest, rfl, by simp [hsign]⟩)
    (by simp [hsign]) fun after hafter => ?_
  rw [← hfeed] at hafter
  have hvalues : Giving (n + 1) after.remaining := hafter ▸ hgiving
  exact Reader.phrase_overflows_of_giving hvalues (by rw [hafter]; omega) h

/-! ## The limits of depth -/

/-- **The limits of depth concern nesting only.**  They keep no flat text from being read and
nothing that is read of one from being run, however long it is.  But they keep every text from
being read that begins with 120 brackets or with 1500 assignments, and every expression from
coming to a value that has as many right operands, values or arguments in one another. -/
theorem depth_limits_nesting_only :
    (∀ text, IsFlat text → .parse .tooDeep ∉ (parse text).diagnostics ∧
      ∀ l, (parse text).line? = some l → ∀ s : Scope,
        (Session.runLine s l).answer ≠ .failed (.evaluation (.error .tooDeep))) ∧
    (∀ n later, 120 ≤ n → (parse (repeated n "(" later)).line? = none ∧
      (parse (repeated n "(" later)).diagnostics = [.parse .tooDeep]) ∧
    (∀ n later, 1500 ≤ n → (parse (repeated n "a = " later)).line? = none ∧
      (parse (repeated n "a = " later)).diagnostics = [.parse .tooDeep]) ∧
    ∀ (e part : Expr) (n : Nat), e.Descends n part → 1500 ≤ n →
      ∀ (s : Scope) (value : Binary64), (s.run e).outcome ≠ .ok value := by
  refine ⟨fun text hflat => ⟨hflat.parse_spares.1, fun l hl s => hflat.runLine_spares hl s⟩,
    fun n later hn => parse_repeated_bracket (Nat.le_trans (by decide) hn) later,
    fun n later hn => parse_repeated_assignment (Nat.le_trans (by decide) hn) later,
    fun e part n hway hn s value => s.run_ne_ok ?_ value⟩
  have hlimit : Run.room < 1500 := by decide
  exact Nat.lt_of_lt_of_le hlimit (Nat.le_trans hn hway.le_demand)

/-- A flat text is read and run, and each of the limits is met by a text or an expression. -/
theorem depth_limits_nesting_only_met :
    (∃ l, (parse "1 + - -x").line? = some l ∧ .parse .tooDeep ∉ (parse "1 + - -x").diagnostics ∧
      (Session.runLine Session.initial l).answer ≠ .failed (.evaluation (.error .tooDeep))) ∧
    (parse (repeated 120 "(" "1 + 2")).diagnostics = [.parse .tooDeep] ∧
    (parse (repeated 1500 "a = " "1 + 2")).diagnostics = [.parse .tooDeep] ∧
    (Session.initial.run ((Expr.assign "a")^[1500] (.var "a"))).outcome ≠ .ok Binary64.one := by
  obtain ⟨hflat, hbrackets, hassignments, hways⟩ := depth_limits_nesting_only
  obtain ⟨hspared, hrun⟩ := hflat "1 + - -x" (by decide +kernel)
  have hline : (parse "1 + - -x").line?.isSome = true := by decide +kernel
  obtain ⟨l, hl⟩ := Option.isSome_iff_exists.1 hline
  exact ⟨⟨l, hl, hspared, hrun l hl _⟩, (hbrackets 120 _ (Nat.le_refl _)).2,
    (hassignments 1500 _ (Nat.le_refl _)).2,
    hways _ _ _ (Expr.descends_iterate_assign "a" 1500 _) (Nat.le_refl _) _ _⟩

end LineCalculator
