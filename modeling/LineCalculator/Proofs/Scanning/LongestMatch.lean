import LineCalculator.Proofs.Scanning.Order
import LineCalculator.Proofs.Scanning.Tiling

/-!
# Tokens are longest matches

A token ends where it does because it cannot go on.  What that means depends on its kind
(`Unplaced.Longest`): no character of a name stands behind a name, nothing that would belong
to a number stands behind it, and of all operators that the text begins with an operator
token is the longest.

## Why no operator has to back up

An operator is read on as long as some operator begins with what has been read.  That is not
the same as reading the longest operator: the beginning reached may be no operator itself, and
a shorter one would be missed.  It is the same here because an operator can be cut off
anywhere and is an operator still, but for the angle brackets, which come to nothing alone
(`Head.lone_of_lookup_eq_none`).  So the only texts that begin with the beginning of an
operator and with no operator are those with an angle bracket that is not doubled, and these
are the ones with a fault (`Head.isStranded_iff`).

## Which part of a text a token stands for

A token says where it begins and how long it is.  As no two places of a text have the same
line and column (`Position.behind_injOn`), this picks out one part of the text
(`Token.Covers`), and what is said of the character behind a token is said of the one behind
that part.
-/

namespace LineCalculator

/-! ## How far a token goes -/

/-- A token that covers `span` goes as far as it can before `rest`. -/
structure Unplaced.Longest (u : Unplaced) (span rest : List Char) : Prop where
  name : u.kind = .identifier → ∀ c ∈ rest.head?, Head.continuesName c = false
  digit : u.kind = .number → ∀ c ∈ rest.head?, c ≠ '_' ∧ Head.isDigitOf u.form c = false
  /-- A point would belong to a number that may have one and has none yet. -/
  point : u.kind = .number → u.form.hasPoint = true → '.' ∉ u.lexeme →
    ∀ c ∈ rest.head?, c ≠ '.'
  /-- A zero alone has no letter behind it that would make it a mark. -/
  mark : u.kind = .number → span = ['0'] → ∀ c ∈ rest.head?, c ∉ ['b', 'o', 'd', 'x']
  /-- An operator is the longest one that begins the text from there on. -/
  operator : u.kind ∈ TokenKind.operators.map Prod.snd → (span, u.kind) ∈ TokenKind.operators ∧
    ∀ entry ∈ TokenKind.operators, entry.1 <+: span ++ rest → entry.1.length ≤ span.length

theorem TokenKind.identifier_notMem_operators : identifier ∉ operators.map Prod.snd := by decide

theorem TokenKind.number_notMem_operators : number ∉ operators.map Prod.snd := by decide

namespace Head

/-! ## Names and numbers -/

theorem longest_name (text : List Char) :
    (⟨.identifier, .bare, text.takeWhile continuesName⟩ : Unplaced).Longest
      (text.takeWhile continuesName) (text.dropWhile continuesName) where
  name _ c hc := by
    have hne := List.head?_dropWhile_not continuesName text
    rw [hc] at hne
    simpa using hne
  digit h := by cases h
  point h := by cases h
  mark h := by cases h
  operator h := absurd h TokenKind.identifier_notMem_operators

/-- What stands behind the digits of a number is no digit, and no point either if one may
still come. -/
theorem head?_snd_splitDigits (form : NumberForm) (pointAllowed : Bool) (text : List Char) :
    ∀ c ∈ (splitDigits form pointAllowed text).2.head?, (c ≠ '_' ∧ isDigitOf form c = false) ∧
      (pointAllowed = true → '.' ∉ (splitDigits form pointAllowed text).1 → c ≠ '.') := by
  induction text generalizing pointAllowed with
  | nil => simp [splitDigits]
  | cons d text ih =>
    intro c hc
    unfold splitDigits at hc ⊢
    split at hc
    case isTrue hdigit =>
      rw [if_pos hdigit]
      obtain ⟨hbehind, hpoint⟩ := ih pointAllowed c hc
      exact ⟨hbehind, fun hallowed hnone => hpoint hallowed fun hmem => hnone (by simp [hmem])⟩
    case isFalse hdigit =>
      rw [if_neg hdigit]
      split at hc
      case isTrue hpoint =>
        rw [if_pos hpoint]
        obtain ⟨hallowed, hd⟩ := Bool.and_eq_true_iff.1 hpoint
        refine ⟨(ih false c hc).1, fun _ hnone => absurd ?_ hnone⟩
        simp [beq_iff_eq.1 hd]
      case isFalse hpoint =>
        obtain rfl : d = c := by simpa using hc
        refine ⟨by simpa using hdigit, fun hallowed _ => ?_⟩
        simpa [hallowed] using hpoint

/-- A zero that has not been taken for the beginning of a mark has no letter of a mark
behind it. -/
theorem splitMark_zero {tail : List Char} (h : (splitMark ('0' :: tail)).1 = .bare) :
    ∀ c ∈ tail.head?, c ∉ ['b', 'o', 'd', 'x'] := by
  intro c hc hmem
  cases tail with
  | nil => cases hc
  | cons d tail =>
    cases hc
    simp only [List.mem_cons, List.not_mem_nil, or_false] at hmem
    rcases hmem with rfl | rfl | rfl | rfl <;> simp [splitMark] at h

theorem longest_number (text : List Char) :
    (⟨.number, (splitMark text).1, (splitDigits (splitMark text).1 (splitMark text).1.hasPoint
      (splitMark text).2).1.filter (· != '_')⟩ : Unplaced).Longest
      (number text).span (number text).rest where
  name h := by cases h
  digit _ c hc := (head?_snd_splitDigits _ _ _ c hc).1
  point _ hallowed hnone c hc :=
    (head?_snd_splitDigits _ _ _ c hc).2 hallowed fun hmem => hnone (by simpa using hmem)
  mark _ hspan c hc := by
    have htext : (number text).span ++ (number text).rest = text := by
      unfold number
      dsimp only
      rw [List.append_assoc, splitDigits_append, mark_append_splitMark]
    rw [hspan] at htext
    -- a mark is longer than the zero alone
    have hbare : (splitMark text).1 = .bare := by
      have hlength := congrArg List.length hspan
      simp only [number, List.length_append, List.length_singleton] at hlength
      generalize (splitMark text).1 = form at hlength
      cases form with
      | bare => rfl
      | binary | octal | decimal | hexadecimal =>
        simp only [NumberForm.mark, List.length_cons, List.length_nil] at hlength
        omega
    rw [← htext] at hbare
    exact splitMark_zero hbare c hc
  operator h := absurd h TokenKind.number_notMem_operators

/-! ## Operators -/

theorem operator_of_lookup {first : Char} {tail : List Char} {kind : TokenKind}
    (h : TokenKind.operators.lookup (splitOperator [first] tail).1 = some kind) :
    operator first tail = ⟨.token kind .bare (splitOperator [first] tail).1,
      (splitOperator [first] tail).1, (splitOperator [first] tail).2⟩ := by
  unfold operator
  dsimp only
  rw [h]

theorem content_operator_of_lookup_eq_none {first : Char} {tail : List Char}
    (h : TokenKind.operators.lookup (splitOperator [first] tail).1 = none) :
    ∃ cause, (operator first tail).content = .fault cause := by
  unfold operator
  dsimp only
  rw [h]
  dsimp only
  split
  · exact ⟨_, rfl⟩
  · exact ⟨_, rfl⟩

/-- Behind the characters taken stands none that an operator could go on with. -/
theorem beginsOperator_behind (taken text : List Char) :
    ∀ c ∈ (splitOperator taken text).2.head?,
      beginsOperator ((splitOperator taken text).1 ++ [c]) = false := by
  induction text generalizing taken with
  | nil => simp [splitOperator]
  | cons d text ih =>
    intro c hc
    unfold splitOperator at hc ⊢
    split at hc
    case isTrue hd =>
      rw [if_pos hd]
      exact ih _ c hc
    case isFalse hd =>
      rw [if_neg hd]
      obtain rfl : d = c := by simpa using hc
      exact Bool.not_eq_true _ ▸ hd

theorem beginsOperator_of_prefix {entry : List Char × TokenKind} {taken : List Char}
    (hentry : entry ∈ TokenKind.operators) (h : taken <+: entry.1) : beginsOperator taken = true :=
  List.any_eq_true.2 ⟨entry, hentry, List.isPrefixOf_iff_prefix.2 h⟩

/-- No operator that a text begins with goes beyond the characters taken. -/
theorem length_le_of_isPrefix {first : Char} {tail : List Char} {entry : List Char × TokenKind}
    (hentry : entry ∈ TokenKind.operators) (h : entry.1 <+: first :: tail) :
    entry.1.length ≤ (splitOperator [first] tail).1.length := by
  have happ : (splitOperator [first] tail).1 ++ (splitOperator [first] tail).2 = first :: tail :=
    splitOperator_append [first] tail
  have hbehind := beginsOperator_behind [first] tail
  generalize splitOperator [first] tail = split at happ hbehind ⊢
  obtain ⟨taken, rest⟩ := split
  dsimp only at happ hbehind ⊢
  by_contra hlonger
  cases rest with
  | nil =>
    have hle := h.length_le
    rw [← happ, List.append_nil] at hle
    exact hlonger hle
  | cons c rest =>
    have htaken : taken ++ [c] <+: first :: tail := ⟨rest, by rw [← happ, List.append_assoc]; rfl⟩
    have hlength : (taken ++ [c]).length ≤ entry.1.length := by
      simpa using Nat.succ_le_of_lt (Nat.lt_of_not_le hlonger)
    have hprefix : taken ++ [c] <+: entry.1 := List.prefix_of_prefix_length_le htaken h hlength
    simpa [hbehind c rfl] using beginsOperator_of_prefix hentry hprefix

theorem longest_operator {first : Char} {tail : List Char} {kind : TokenKind}
    (h : ((splitOperator [first] tail).1, kind) ∈ TokenKind.operators) :
    (⟨kind, .bare, (splitOperator [first] tail).1⟩ : Unplaced).Longest
      (splitOperator [first] tail).1 (splitOperator [first] tail).2 where
  name hkind := by
    obtain rfl : kind = .identifier := hkind
    exact absurd (List.mem_map_of_mem h) TokenKind.identifier_notMem_operators
  digit hkind := absurd hkind (TokenKind.operators_ne_number _ h)
  point hkind := absurd hkind (TokenKind.operators_ne_number _ h)
  mark hkind := absurd hkind (TokenKind.operators_ne_number _ h)
  operator _ := by
    refine ⟨h, fun entry hentry hprefix => ?_⟩
    rw [splitOperator_append] at hprefix
    exact length_le_of_isPrefix hentry hprefix

/-! ## Any token -/

/-- A token that is one character long whatever follows is no number, name or operator. -/
theorem longest_single {kind : TokenKind} (c : Char) (rest : List Char)
    (h : kind = .newline ∨ (c, kind) ∈ TokenKind.punctuation) :
    (⟨kind, .bare, [c]⟩ : Unplaced).Longest [c] rest := by
  have hall : ∀ entry ∈ TokenKind.punctuation, entry.2 ≠ .identifier ∧ entry.2 ≠ .number ∧
      entry.2 ∉ TokenKind.operators.map Prod.snd := by decide
  have hkind : kind ≠ .identifier ∧ kind ≠ .number ∧
      kind ∉ TokenKind.operators.map Prod.snd := by
    rcases h with rfl | hentry
    · decide
    · exact hall _ hentry
  obtain ⟨hname, hnumber, hoperator⟩ := hkind
  exact ⟨fun h => absurd h hname, fun h => absurd h hnumber, fun h => absurd h hnumber,
    fun h => absurd h hnumber, fun h => absurd h hoperator⟩

/-- **A token at the head of a text goes as far as it can.** -/
theorem longest_read {first : Char} {tail lexeme : List Char} {kind : TokenKind}
    {form : NumberForm} (h : (read first tail).content = .token kind form lexeme) :
    (⟨kind, form, lexeme⟩ : Unplaced).Longest (read first tail).span (read first tail).rest := by
  unfold read at h ⊢
  by_cases hnewline : first = '\n'
  · rw [if_pos hnewline] at h ⊢
    cases h
    exact longest_single first tail (Or.inl rfl)
  · rw [if_neg hnewline] at h ⊢
    cases hlookup : TokenKind.punctuation.lookup first with
    | some kind' =>
      rw [hlookup] at h
      cases h
      exact longest_single first tail (Or.inr (mem_of_lookup hlookup))
    | none =>
      rw [hlookup] at h
      dsimp only at h ⊢
      by_cases hnumber : startsNumber first = true
      · rw [if_pos hnumber] at h ⊢
        cases h
        exact longest_number (first :: tail)
      · rw [if_neg hnumber] at h ⊢
        by_cases hname : startsName first = true
        · rw [if_pos hname] at h ⊢
          cases h
          exact longest_name (first :: tail)
        · rw [if_neg hname] at h ⊢
          by_cases hop : beginsOperator [first] = true
          · rw [if_pos hop] at h ⊢
            cases hkind : TokenKind.operators.lookup (splitOperator [first] tail).1 with
            | some kind' =>
              rw [operator_of_lookup hkind] at h ⊢
              cases h
              exact longest_operator (mem_of_lookup hkind)
            | none =>
              obtain ⟨cause, hcause⟩ := content_operator_of_lookup_eq_none hkind
              rw [hcause] at h
              cases h
          · rw [if_neg hop] at h
            cases h

/-! ## Texts stranded in an operator -/

/-- A text begins as an operator does, and with no operator. -/
def IsStranded (text : List Char) : Prop :=
  (∃ entry ∈ TokenKind.operators, ∃ c ∈ entry.1.head?, text.head? = some c) ∧
    ∀ entry ∈ TokenKind.operators, ¬ entry.1 <+: text

/-- A head is given up although a token may begin with its first character. -/
def IsBroken (head : Head) : Prop :=
  ∃ cause, head.content = .fault cause ∧ ∀ c, cause ≠ .unexpected c

theorem beginsOperator_singleton_iff (c : Char) :
    beginsOperator [c] = true ↔ ∃ entry ∈ TokenKind.operators, ∃ d ∈ entry.1.head?, c = d := by
  unfold beginsOperator
  rw [List.any_eq_true]
  refine exists_congr fun entry => and_congr_right fun _ => ?_
  rw [List.isPrefixOf_iff_prefix]
  cases entry.1 with
  | nil => simp
  | cons d symbol => simp [List.cons_prefix_cons, eq_comm]

/-- The operators begin with characters of their own. -/
theorem read_of_beginsOperator {first : Char} (tail : List Char)
    (h : beginsOperator [first] = true) : read first tail = operator first tail := by
  have hall : (TokenKind.operators.filterMap fun entry => entry.1.head?).all (fun d =>
      decide (d ≠ '\n' ∧ TokenKind.punctuation.lookup d = none ∧ startsNumber d = false ∧
        startsName d = false)) = true := by decide +kernel
  obtain ⟨entry, hentry, c, hc, rfl⟩ := (beginsOperator_singleton_iff first).1 h
  obtain ⟨hnewline, hpunctuation, hnumber, hname⟩ :=
    of_decide_eq_true (List.all_eq_true.1 hall first (List.mem_filterMap.2 ⟨entry, hentry, hc⟩))
  unfold read
  rw [if_neg hnewline, hpunctuation]
  simp [hnumber, hname, h]

/-- The operator read is one, unless the text begins with none. -/
theorem isBroken_operator_iff {first : Char} (tail : List Char)
    (h : beginsOperator [first] = true) :
    (operator first tail).IsBroken ↔
      ∀ entry ∈ TokenKind.operators, ¬ entry.1 <+: first :: tail := by
  have hreads := reads_operator tail h
  cases hlookup : TokenKind.operators.lookup (splitOperator [first] tail).1 with
  | some kind =>
    have hentry := mem_of_lookup hlookup
    refine iff_of_false ?_ fun hnone => hnone _ hentry ?_
    · rintro ⟨cause, hcause, -⟩
      rw [operator_of_lookup hlookup] at hcause
      cases hcause
    · exact ⟨_, splitOperator_append [first] tail⟩
  | none =>
    refine iff_of_true ?_ fun entry hentry hprefix => ?_
    · obtain ⟨cause, hcause⟩ := content_operator_of_lookup_eq_none hlookup
      generalize operator first tail = head at hreads hcause
      cases hreads with
      | token => cases hcause
      | unexpected begins => simp [h] at begins
      | lone bracket => exact ⟨_, rfl, ScanCause.afterLone_ne_unexpected first tail⟩
    · -- what has been taken is a bracket alone, and an operator within it would be that bracket
      have hle := length_le_of_isPrefix hentry hprefix
      have htaken : (splitOperator [first] tail).1 ≠ [] := by
        intro hnil
        have hlength := length_le_splitOperator [first] tail
        rw [hnil] at hlength
        cases hlength
      have happ : (splitOperator [first] tail).1 <+: first :: tail :=
        ⟨_, splitOperator_append [first] tail⟩
      have hwithin := List.prefix_of_prefix_length_le hprefix happ hle
      have hbrackets : ∀ entry ∈ TokenKind.operators, ¬ entry.1 <+: ['<'] ∧
          ¬ entry.1 <+: ['>'] := by decide
      rcases lone_of_lookup_eq_none htaken (beginsOperator_splitOperator tail h) hlookup with
        hlone | hlone
      · exact (hbrackets entry hentry).1 (hlone ▸ hwithin)
      · exact (hbrackets entry hentry).2 (hlone ▸ hwithin)

/-- **The texts that break off within an operator** are those that begin as one does and with
none. -/
theorem isBroken_read_iff (first : Char) (tail : List Char) :
    (read first tail).IsBroken ↔ IsStranded (first :: tail) := by
  by_cases h : beginsOperator [first] = true
  · have hbegins := (beginsOperator_singleton_iff first).1 h
    rw [read_of_beginsOperator tail h, isBroken_operator_iff tail h]
    refine ⟨fun hnone => ⟨?_, hnone⟩, fun hstranded => hstranded.2⟩
    simpa using hbegins
  · refine iff_of_false ?_ fun hstranded => h ((beginsOperator_singleton_iff first).2 ?_)
    · rintro ⟨cause, hcause, hother⟩
      have hreads := reads_read first tail
      generalize read first tail = head at hreads hcause
      cases hreads with
      | token => cases hcause
      | unexpected =>
        cases hcause
        exact hother first rfl
      | lone bracket =>
        rcases bracket with rfl | rfl
        · exact h (by decide)
        · exact h (by decide)
    · simpa using hstranded.1

end Head

/-! ## The part of a text that a token stands for -/

namespace Position

/-- Two places of a text are told apart by line and column. -/
theorem behind_injOn {read read' rest rest' : List Char} (h : read ++ rest = read' ++ rest')
    (hplace : behind read = behind read') : read = read' := by
  have hnil : ∀ {first more : List Char}, behind first = behind (first ++ more) → more = [] := by
    intro first more heq
    by_contra hne
    rw [← advance_behind] at heq
    exact (before_advance _ hne).ne heq
  rcases List.append_eq_append_iff.1 h with ⟨more, rfl, -⟩ | ⟨more, rfl, -⟩
  · simp [hnil hplace]
  · simp [hnil hplace.symm]

end Position

/-- A token covers `span` in a text, and `rest` stands behind it. -/
def Token.Covers (t : Token) (text span rest : List Char) : Prop :=
  ∃ read, text = read ++ (span ++ rest) ∧ t.position = .behind read ∧ t.length = span.length

/-- A token covers one part of a text only. -/
theorem Token.Covers.unique {t : Token} {text span rest span' rest' : List Char}
    (h : t.Covers text span rest) (h' : t.Covers text span' rest') :
    span = span' ∧ rest = rest' := by
  obtain ⟨read, htext, hposition, hlength⟩ := h
  obtain ⟨read', htext', hposition', hlength'⟩ := h'
  have happ := htext.symm.trans htext'
  obtain rfl := Position.behind_injOn happ (hposition.symm.trans hposition')
  exact List.append_inj (List.append_cancel_left happ) (hlength.symm.trans hlength')

namespace Scanner

/-- What a step that yields a token has read. -/
theorem exists_head_of_token {s next : Scanner} {t : Token} (h : s.scan = (.token t, next)) :
    ∃ c tail, s.rest.dropWhile Head.isSkipped = c :: tail ∧
      (Head.read c tail).content = .token t.kind t.form t.lexeme.toList ∧
      t.length = (Head.read c tail).span.length ∧ next.rest = (Head.read c tail).rest ∧
      next.position = s.first.advance (Head.read c tail).span := by
  cases hdrop : s.rest.dropWhile Head.isSkipped with
  | nil =>
    rw [scan_of_nil hdrop] at h
    cases h
  | cons c tail =>
    refine ⟨c, tail, rfl, ?_⟩
    cases hcontent : (Head.read c tail).content with
    | token kind form lexeme =>
      rw [scan_of_token hdrop hcontent] at h
      cases h
      exact ⟨by rw [String.toList_ofList], rfl, rfl, rfl⟩
    | fault cause =>
      rw [scan_of_fault hdrop hcontent] at h
      cases h

/-- Every token that a scanner goes on to yield covers a part of the text and goes as far as it
can. -/
theorem longest_pieces {s : Scanner} {text : List Char} (h : s.StandsIn text) :
    ∀ t ∈ tokensOf s.pieces, ∃ span rest, t.Covers text span rest ∧
      t.unplaced.Longest span rest := by
  induction s using pieces.induct with
  | case1 s t next hscan ih =>
    have hnext : next.StandsIn text := by simpa [hscan] using h.scan
    rw [pieces_of_token hscan, tokensOf_ok]
    refine List.forall_mem_cons.2 ⟨?_, ih hnext⟩
    obtain ⟨read, hread, hposition⟩ := h
    obtain ⟨c, tail, hdrop, hcontent, hlength, -, -⟩ := exists_head_of_token hscan
    refine ⟨_, _, ⟨read ++ s.rest.takeWhile Head.isSkipped, ?_, ?_, hlength⟩,
      Head.longest_read hcontent⟩
    · rw [Head.span_append_rest, ← hdrop, List.append_assoc, List.takeWhile_append_dropWhile, hread]
    · rw [(position_of_token hscan).1, first, hposition, Position.advance_behind]
  | case2 s f next hscan ih =>
    rw [pieces_of_fault hscan, tokensOf_error]
    exact ih (by simpa [hscan] using h.scan)
  | case3 s next hscan =>
    rw [pieces_of_finished hscan]
    simp

/-- A step meets a fault other than a character that begins no token. -/
def Breaks (s : Scanner) : Prop := ∃ f, s.scan.1 = .fault f ∧ ∀ c, f.cause ≠ .unexpected c

theorem breaks_iff (s : Scanner) :
    s.Breaks ↔ Head.IsStranded (s.rest.dropWhile Head.isSkipped) := by
  unfold Breaks
  cases hdrop : s.rest.dropWhile Head.isSkipped with
  | nil =>
    rw [scan_of_nil hdrop]
    simp [Head.IsStranded]
  | cons c tail =>
    rw [← Head.isBroken_read_iff]
    unfold Head.IsBroken
    cases hcontent : (Head.read c tail).content with
    | token kind form lexeme =>
      rw [scan_of_token hdrop hcontent]
      simp
    | fault cause =>
      rw [scan_of_fault hdrop hcontent]
      simp

end Scanner

/-- **Tokens are longest matches.**  Every token of a text covers one part of it and goes as far
from there as it can; and a step breaks off within an operator exactly if the text behind the
blanks begins as an operator does and with none. -/
theorem tokens_are_longest :
    (∀ text : String, ∀ t ∈ tokenize text, (∃ span rest, t.Covers text.toList span rest) ∧
      ∀ span rest, t.Covers text.toList span rest → t.unplaced.Longest span rest) ∧
    ∀ s : Scanner, s.Breaks ↔ Head.IsStranded (s.rest.dropWhile Head.isSkipped) := by
  refine ⟨fun text t ht => ?_, Scanner.breaks_iff⟩
  have hstands : (Scanner.ofText text).StandsIn text.toList := ⟨[], rfl, rfl⟩
  obtain ⟨span, rest, hcovers, hlongest⟩ := Scanner.longest_pieces hstands t ht
  refine ⟨⟨span, rest, hcovers⟩, fun span' rest' hcovers' => ?_⟩
  obtain ⟨rfl, rfl⟩ := hcovers.unique hcovers'
  exact hlongest

/-- Of two equals signs behind a shift the first belongs to it. -/
theorem tokens_are_longest_shift :
    (⟨.compound .shiftLeft, "<<=", .bare, ⟨1, 2⟩, 3⟩ : Token) ∈ tokenize "a<<==" ∧
      (⟨.compound .shiftLeft, .bare, ['<', '<', '=']⟩ : Unplaced).Longest ['<', '<', '=']
        ['='] := by
  have hmem : (⟨.compound .shiftLeft, "<<=", .bare, ⟨1, 2⟩, 3⟩ : Token) ∈ tokenize "a<<==" := by
    decide +kernel
  exact ⟨hmem, (tokens_are_longest.1 _ _ hmem).2 _ _ ⟨['a'], by decide, by decide, rfl⟩⟩

end LineCalculator
