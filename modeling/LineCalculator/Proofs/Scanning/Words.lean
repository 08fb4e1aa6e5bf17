import Mathlib.Data.List.Forall2
import LineCalculator.Proofs.Scanning.Layout
import LineCalculator.Token.Literal

/-!
# Words separated by spaces

A text that is one token and nothing besides, and no newline, is a word: a name, a number,
or a sign of a fixed spelling.  Words with a space between any two of them are scanned one after
the other (`tokenize_joined`), as are any texts without a fault (`ScansAs.joined`).
-/

namespace LineCalculator

namespace Head

theorem isSkipped_space : isSkipped ' ' = true := by decide

/-- A text is a token, which goes to the end of the text. -/
def Spells (text : List Char) (t : Token) : Prop :=
  ∃ c tail, text = c :: tail ∧ c ≠ '\n' ∧ isSkipped c = false ∧
    (read c tail).content = .token t.kind t.form t.lexeme.toList ∧ (read c tail).rest = []

/-- A word is a token as a whole, and that is no newline. -/
theorem spells_iff {text : List Char} {t : Token} :
    Spells text t ↔ text.head? ≠ some '\n' ∧ IsWhole text t.unplaced := by
  constructor
  · rintro ⟨c, tail, rfl, hc, hwhole⟩
    exact ⟨by simpa using hc, c, tail, rfl, hwhole⟩
  · rintro ⟨hc, c, tail, rfl, hwhole⟩
    exact ⟨c, tail, rfl, by simpa using hc, hwhole⟩

/-- A word holds no newline. -/
theorem Spells.newline_notMem {text : List Char} {t : Token} (h : Spells text t) :
    '\n' ∉ text := by
  obtain ⟨c, tail, rfl, hc, -, hcontent, hrest⟩ := h
  intro hmem
  have hbehind : '\n' ∈ tail := (List.mem_cons.1 hmem).resolve_left hc.symm
  obtain ⟨before, after, htail⟩ := List.mem_iff_append.1 hbehind
  rw [htail] at hcontent hrest
  -- a token before the newline would leave it
  rcases read_append separates_newline hc before after with
    ⟨kind, form, lexeme, -, -, hlonger⟩ | ⟨cause, cause', -, hcause'⟩
  · rw [hlonger] at hrest
    simp [Head.before] at hrest
  · rw [hcontent] at hcause'
    cases hcause'

/-! ## Which texts are words -/

/-- A text is a name. -/
def IsName (text : List Char) : Prop :=
  ∃ c tail, text = c :: tail ∧ startsName c = true ∧ ∀ d ∈ tail, continuesName d = true

/-- A text is a number that has the value. -/
def IsNumeral (text : List Char) (value : Binary64) : Prop :=
  ∃ c tail form digits, text = c :: tail ∧ startsNumber c = true ∧
    (number text).content = .token .number form digits ∧ (number text).rest = [] ∧
    Literal.value? form digits = some value

/-- A character begins a word that it is not on its own. -/
structure BeginsWord (c : Char) : Prop where
  newline : c ≠ '\n'
  skipped : isSkipped c = false
  punctuation : TokenKind.punctuation.lookup c = none

/-- The characters that are a token on their own, whatever follows. -/
def loneChars : List Char := '\n' :: TokenKind.punctuation.map (·.1)

/-- A class of characters begins words if it has neither blanks nor lone characters. -/
theorem BeginsWord.of_class {p : Char → Bool} {c : Char} (hc : p c = true)
    (hskipped : isSkipped c = false) (hlone : loneChars.all (fun d => !p d) = true) :
    BeginsWord c := by
  have hnotMem : c ∉ loneChars := fun hmem => by simpa [hc] using List.all_eq_true.1 hlone c hmem
  refine ⟨fun hnewline => hnotMem (hnewline ▸ List.mem_cons_self), hskipped, ?_⟩
  rw [List.lookup_eq_none_iff]
  intro entry hentry
  rw [bne_iff_ne]
  rintro rfl
  exact hnotMem (List.mem_cons_of_mem _ (List.mem_map_of_mem hentry))

theorem toNat_of_startsNumber {c : Char} (h : startsNumber c = true) :
    46 ≤ c.toNat ∧ c.toNat ≤ 57 := by
  unfold startsNumber at h
  rcases Bool.or_eq_true_iff.1 h with hdigit | hpoint
  · have hrange : '0'.toNat ≤ c.toNat ∧ c.toNat ≤ '9'.toNat := by
      simpa [Char.isDigit, UInt32.le_iff_toNat_le] using hdigit
    exact ⟨Nat.le_trans (by decide) hrange.1, hrange.2⟩
  · rw [beq_iff_eq.1 hpoint]
    decide

/-- No name begins like a number. -/
theorem startsNumber_of_startsName {c : Char} (h : startsName c = true) :
    startsNumber c = false := by
  have hletters : ∀ r ∈ Text.letterRanges, 57 < r.1 := by decide +kernel
  by_contra hnumber
  obtain ⟨-, hlast⟩ := toNat_of_startsNumber (Bool.not_eq_false _ ▸ hnumber)
  rcases Bool.or_eq_true_iff.1 h with hunderscore | hletter
  · rw [beq_iff_eq.1 hunderscore] at hlast
    exact absurd hlast (by decide)
  · obtain ⟨r, hr, hfirst, -⟩ := Text.exists_mem_of_inRanges hletter
    exact absurd (hletters r hr) (by omega)

theorem beginsWord_of_startsName {c : Char} (h : startsName c = true) : BeginsWord c := by
  refine .of_class h ?_ (by decide)
  rcases Bool.or_eq_true_iff.1 h with hunderscore | hletter
  · rw [beq_iff_eq.1 hunderscore]
    decide
  · simp [isSkipped, isBlank_of_isLetter hletter]

theorem beginsWord_of_startsNumber {c : Char} (h : startsNumber c = true) : BeginsWord c := by
  refine .of_class h ?_ (by decide)
  have hblanks : ∀ r ∈ Text.blankRanges, r.2 < 46 ∨ 57 < r.1 := by decide
  obtain ⟨hfrom, hto⟩ := toNat_of_startsNumber h
  by_contra hskipped
  have hblank : Text.isBlank c = true :=
    (Bool.and_eq_true_iff.1 (Bool.not_eq_false _ ▸ hskipped)).2
  obtain ⟨r, hr, hfirst, hlast⟩ := Text.exists_mem_of_inRanges hblank
  exact absurd (hblanks r hr) (by omega)

/-- A name is read as a whole. -/
theorem read_name {c : Char} {tail : List Char} (hc : startsName c = true)
    (htail : ∀ d ∈ tail, continuesName d = true) :
    read c tail = ⟨.token .identifier .bare (c :: tail), c :: tail, []⟩ := by
  have hbegins := beginsWord_of_startsName hc
  have hall : ∀ d ∈ c :: tail, continuesName d = true := by
    intro d hd
    rcases List.mem_cons.1 hd with rfl | hd
    · unfold continuesName
      exact Bool.or_eq_true_iff.2 (Or.inl hc)
    · exact htail d hd
  have hread : read c tail = name (c :: tail) := by
    unfold read
    rw [if_neg hbegins.newline, hbegins.punctuation]
    simp [startsNumber_of_startsName hc, hc]
  rw [hread, name, List.takeWhile_eq_self_iff.2 hall, List.dropWhile_eq_nil_iff.2 hall]

theorem read_number {c : Char} (hc : startsNumber c = true) (tail : List Char) :
    read c tail = number (c :: tail) := by
  have hbegins := beginsWord_of_startsNumber hc
  unfold read
  rw [if_neg hbegins.newline, hbegins.punctuation]
  exact if_pos hc

/-! ## Words as tokens -/

theorem exists_spells {c : Char} {tail lexeme : List Char} {kind : TokenKind} {form : NumberForm}
    (hc : c ≠ '\n') (hskip : isSkipped c = false)
    (hcontent : (read c tail).content = .token kind form lexeme) (hrest : (read c tail).rest = []) :
    ∃ t, Spells (c :: tail) t :=
  ⟨⟨kind, String.ofList lexeme, form, .start, 0⟩, c, tail, rfl, hc, hskip,
    by rw [hcontent, String.toList_ofList], hrest⟩

/-- A text is one token only. -/
theorem Spells.eq_of_read {c : Char} {tail lexeme : List Char} {kind : TokenKind}
    {form : NumberForm} {t : Token} (h : Spells (c :: tail) t)
    (hcontent : (read c tail).content = .token kind form lexeme) :
    t.kind = kind ∧ t.form = form ∧ t.lexeme.toList = lexeme := by
  obtain ⟨c', tail', heq, -, -, hcontent', -⟩ := h
  obtain ⟨rfl, rfl⟩ := List.cons.inj heq
  rw [hcontent] at hcontent'
  cases hcontent'
  exact ⟨rfl, rfl, rfl⟩

theorem IsName.exists_spells {text : List Char} (h : IsName text) : ∃ t, Spells text t := by
  obtain ⟨c, tail, rfl, hc, htail⟩ := h
  have hbegins := beginsWord_of_startsName hc
  exact Head.exists_spells hbegins.newline hbegins.skipped (by rw [read_name hc htail])
    (by rw [read_name hc htail])

/-- A name is an identifier. -/
theorem IsName.of_spells {text : List Char} {t : Token} (h : IsName text) (ht : Spells text t) :
    t.kind = .identifier ∧ t.lexeme.toList = text := by
  obtain ⟨c, tail, rfl, hc, htail⟩ := h
  obtain ⟨hkind, -, hlexeme⟩ := ht.eq_of_read (congrArg Head.content (read_name hc htail))
  exact ⟨hkind, hlexeme⟩

theorem IsNumeral.exists_spells {text : List Char} {value : Binary64} (h : IsNumeral text value) :
    ∃ t, Spells text t := by
  obtain ⟨c, tail, form, digits, rfl, hc, hcontent, hrest, -⟩ := h
  have hbegins := beginsWord_of_startsNumber hc
  exact Head.exists_spells hbegins.newline hbegins.skipped (by rw [read_number hc, hcontent])
    (by rw [read_number hc, hrest])

/-- A number is a number token with its value. -/
theorem IsNumeral.of_spells {text : List Char} {value : Binary64} {t : Token}
    (h : IsNumeral text value) (ht : Spells text t) :
    t.kind = .number ∧ t.value? = some value := by
  obtain ⟨c, tail, form, digits, rfl, hc, hcontent, -, hvalue⟩ := h
  obtain ⟨hkind, hform, hlexeme⟩ := ht.eq_of_read (by rw [read_number hc, hcontent])
  refine ⟨hkind, ?_⟩
  rw [Token.value?, hform, hlexeme, hvalue]

/-- A text is a token of a fixed spelling. -/
def IsSign (text : List Char) (kind : TokenKind) : Prop :=
  ∃ c tail, text = c :: tail ∧ c ≠ '\n' ∧ isSkipped c = false ∧
    (read c tail).content = .token kind .bare text ∧ (read c tail).rest = []

theorem IsSign.exists_spells {text : List Char} {kind : TokenKind} (h : IsSign text kind) :
    ∃ t, Spells text t := by
  obtain ⟨c, tail, rfl, hc, hskip, hcontent, hrest⟩ := h
  exact Head.exists_spells hc hskip hcontent hrest

theorem IsSign.of_spells {text : List Char} {kind : TokenKind} {t : Token} (h : IsSign text kind)
    (ht : Spells text t) : t.kind = kind := by
  obtain ⟨c, tail, rfl, -, -, hcontent, -⟩ := h
  exact (ht.eq_of_read hcontent).1

theorem isSign_openBracket : IsSign ['('] .openBracket :=
  ⟨_, _, rfl, by decide, by decide, rfl, rfl⟩

theorem isSign_closeBracket : IsSign [')'] .closeBracket :=
  ⟨_, _, rfl, by decide, by decide, rfl, rfl⟩

theorem isSign_comma : IsSign [','] .comma := ⟨_, _, rfl, by decide, by decide, rfl, rfl⟩

theorem isSign_equals : IsSign ['='] .equals := ⟨_, _, rfl, by decide, by decide, rfl, rfl⟩

theorem isSign_bang : IsSign ['!'] .bang := ⟨_, _, rfl, by decide, by decide, rfl, rfl⟩

theorem isSign_symbol (op : BinaryOp) : IsSign op.symbol (.operator op) := by
  cases op <;> exact ⟨_, _, rfl, by decide, by decide, rfl, rfl⟩

end Head

/-- Words with a space between any two of them. -/
def joined (words : List (List Char)) : List Char := [' '].intercalate words

theorem joined_cons_cons (word next : List Char) (words : List (List Char)) :
    joined (word :: next :: words) = word ++ ' ' :: joined (next :: words) := by
  simp [joined, List.intercalate]

theorem joined_singleton (word : List Char) : joined [word] = word := by
  simp [joined, List.intercalate]

theorem newline_notMem_joined {words : List (List Char)} (h : ∀ word ∈ words, '\n' ∉ word) :
    '\n' ∉ joined words := by
  induction words with
  | nil => simp [joined]
  | cons word words ih =>
    have hword := h word List.mem_cons_self
    have hwords := ih fun other hother => h other (List.mem_cons_of_mem word hother)
    cases words with
    | nil => rwa [joined_singleton]
    | cons next words =>
      rw [joined_cons_cons]
      simp [hword, hwords]

/-- Texts with a space between any two of them are scanned one after the other. -/
theorem ScansAs.joined {texts : List (List Char)} {uss : List (List Unplaced)}
    (h : List.Forall₂ ScansAs uss texts) : ScansAs uss.flatten (joined texts) := by
  induction h with
  | nil => exact .blanks (by simp [LineCalculator.joined])
  | @cons us text uss texts hfirst later ih =>
    cases later with
    | nil =>
      rw [joined_singleton, List.flatten_singleton]
      exact hfirst
    | cons hnext later =>
      rw [joined_cons_cons, List.flatten_cons]
      have hspace := ih.blanks_append (List.forall_mem_singleton.2 Head.isSkipped_space)
      exact hfirst.append hspace (by simp [Head.isSkipped_space])

theorem exists_forall₂ {α β : Type} {R : α → β → Prop} {l : List α} (h : ∀ a ∈ l, ∃ b, R a b) :
    ∃ l', List.Forall₂ R l l' := by
  induction l with
  | nil => exact ⟨[], .nil⟩
  | cons a l ih =>
    obtain ⟨⟨b, hb⟩, hlater⟩ := List.forall_mem_cons.1 h
    obtain ⟨l', hl'⟩ := ih hlater
    exact ⟨b :: l', .cons hb hl'⟩

/-- A text of words with a space between any two of them has no fault, and the words are
its tokens. -/
theorem tokenize_joined {words : List (List Char)}
    (hwords : ∀ word ∈ words, ∃ t, Head.Spells word t) :
    scanFaults (String.ofList (joined words)) = [] ∧
      List.Forall₂ Head.Spells words (tokenize (String.ofList (joined words))) := by
  obtain ⟨ts, hts⟩ := exists_forall₂ hwords
  -- being a word of a token does not depend on where the token stands
  have hunplaced : ∀ ts, List.Forall₂ Head.Spells words ts ↔ List.Forall₂
      (fun word u => word.head? ≠ some '\n' ∧ Head.IsWhole word u) words
        (ts.map Token.unplaced) := by
    intro ts
    rw [List.forall₂_map_right_iff]
    constructor
    · exact fun h => h.imp fun _ _ => Head.spells_iff.1
    · exact fun h => h.imp fun _ _ => Head.spells_iff.2
  have hwhole := (hunplaced ts).1 hts
  have hscan : List.Forall₂ ScansAs ((ts.map Token.unplaced).map fun u => [u]) words :=
    List.forall₂_map_left_iff.2 (hwhole.imp fun _ _ h => .of_isWhole h.2).flip
  have hjoined := ScansAs.joined hscan
  rw [← String.toList_ofList (l := joined words)] at hjoined
  obtain ⟨hfaults, htokens⟩ := tokenize_of_scansAs hjoined
  refine ⟨hfaults, (hunplaced _).2 ?_⟩
  rw [htokens, ← List.flatMap_def, List.flatMap_singleton']
  exact hwhole

end LineCalculator
