import Mathlib.Data.List.TakeWhile
import LineCalculator.Proofs.Scanning.Spelling

/-!
# Characters that no token goes on with

A character separates if no name, no number and no operator goes on with it
(`Head.Separates`).  The newline separates, and so does every blank
(`Head.separates_newline`, `Head.separates_of_isSkipped`).

Text that begins with such a character has no say in the token before it: the head of a
text is the same token with more text behind, which is left over too (`Head.read_append`).
A fault stays a fault, though not always the same.  An angle bracket at the end of a text
misses what is cut off, and before a character that separates it has found that character.
-/

namespace LineCalculator

/-! ## Text before a character that does not belong to it -/

section TakeWhile

variable {p : Char → Bool} {c : Char}

theorem takeWhile_append_cons (hc : p c = false) (text more : List Char) :
    (text ++ c :: more).takeWhile p = text.takeWhile p := by
  induction text with
  | nil => simp [hc]
  | cons a text ih => simp only [List.cons_append, List.takeWhile_cons, ih]

theorem dropWhile_append_cons (hc : p c = false) (text more : List Char) :
    (text ++ c :: more).dropWhile p = text.dropWhile p ++ c :: more := by
  induction text with
  | nil => simp [hc]
  | cons a text ih =>
    simp only [List.cons_append, List.dropWhile_cons, ih]
    split
    · rfl
    · rfl

end TakeWhile

/-! ## Heads -/

namespace Head

theorem isSkipped_newline : isSkipped '\n' = false := by decide

/-- No token goes on with a character. -/
structure Separates (x : Char) : Prop where
  name : continuesName x = false
  digit : ∀ form, isDigitOf form x = false
  point : x ≠ '.'
  operator : ∀ entry ∈ TokenKind.operators, x ∉ entry.1

theorem separates_newline : Separates '\n' where
  name := by decide
  digit form := by cases form <;> decide
  point := by decide
  operator := by decide

theorem Separates.ne {x c : Char} (h : Separates x) (hc : continuesName c = true) : x ≠ c := by
  rintro rfl
  exact absurd hc (by simp [h.name])

section Separates

variable {x : Char} (hx : Separates x)

include hx

theorem splitMark_append (text more : List Char) :
    splitMark (text ++ x :: more) = ((splitMark text).1, (splitMark text).2 ++ x :: more) := by
  have hb : x ≠ 'b' := hx.ne (by decide)
  have ho : x ≠ 'o' := hx.ne (by decide)
  have hd : x ≠ 'd' := hx.ne (by decide)
  have hhex : x ≠ 'x' := hx.ne (by decide)
  have hzero : x ≠ '0' := hx.ne (by decide)
  rcases text with _ | ⟨a, _ | ⟨b, rest⟩⟩
  · rw [List.nil_append]
    unfold splitMark
    split <;> simp_all
  · unfold splitMark
    split <;> simp_all
  · show splitMark (a :: b :: (rest ++ x :: more)) = _
    unfold splitMark
    split <;> simp_all

theorem splitDigits_append_separator (form : NumberForm) (pointAllowed : Bool)
    (text more : List Char) :
    splitDigits form pointAllowed (text ++ x :: more) =
      ((splitDigits form pointAllowed text).1,
        (splitDigits form pointAllowed text).2 ++ x :: more) := by
  have hunderscore : x ≠ '_' := hx.ne (by decide)
  induction text generalizing pointAllowed with
  | nil => simp [splitDigits, hx.digit form, hunderscore, hx.point]
  | cons c rest ih =>
    simp only [List.cons_append, splitDigits, ih]
    split
    · rfl
    · split
      · rfl
      · rfl

theorem beginsOperator_append (taken : List Char) : beginsOperator (taken ++ [x]) = false := by
  rw [beginsOperator, List.any_eq_false]
  intro entry hentry hprefix
  have hmem : x ∈ taken ++ [x] := List.mem_append_right taken List.mem_cons_self
  exact hx.operator entry hentry ((List.isPrefixOf_iff_prefix.1 hprefix).subset hmem)

theorem splitOperator_append_separator (taken text more : List Char) :
    splitOperator taken (text ++ x :: more) =
      ((splitOperator taken text).1, (splitOperator taken text).2 ++ x :: more) := by
  induction text generalizing taken with
  | nil => simp [splitOperator, beginsOperator_append hx]
  | cons c rest ih =>
    simp only [List.cons_append, splitOperator, ih]
    split
    · rfl
    · rfl

end Separates

/-- The head with a character and more text behind its rest. -/
def before (head : Head) (x : Char) (more : List Char) : Head :=
  { head with rest := head.rest ++ x :: more }

/-- What a head is with a character that separates behind the text: the same token, or a
fault still. -/
def Outlasts (head longer : Head) (x : Char) (more : List Char) : Prop :=
  (∃ kind form lexeme, head.content = .token kind form lexeme ∧ kind ≠ .newline ∧
    longer = head.before x more) ∨
  (∃ cause cause', head.content = .fault cause ∧ longer.content = .fault cause')

section Separates

variable {x : Char} (hx : Separates x)

include hx

theorem number_append (text more : List Char) :
    number (text ++ x :: more) = (number text).before x more := by
  unfold number before
  simp only [splitMark_append hx, splitDigits_append_separator hx]

theorem name_append (text more : List Char) :
    name (text ++ x :: more) = (name text).before x more := by
  unfold name before
  simp only [takeWhile_append_cons hx.name, dropWhile_append_cons hx.name]

theorem operator_append (first : Char) (tail more : List Char) :
    (operator first tail).Outlasts (operator first (tail ++ x :: more)) x more := by
  unfold operator
  simp only [splitOperator_append_separator hx]
  cases hkind : TokenKind.operators.lookup (splitOperator [first] tail).1 with
  | some kind =>
    have hentry := mem_of_lookup hkind
    exact Or.inl ⟨kind, .bare, _, rfl, TokenKind.operators_ne_newline _ hentry, rfl⟩
  | none =>
    refine Or.inr ?_
    dsimp only
    split
    · split
      · exact ⟨_, _, rfl, rfl⟩
      · exact ⟨_, _, rfl, rfl⟩
    · split
      · exact ⟨_, _, rfl, rfl⟩
      · exact ⟨_, _, rfl, rfl⟩

/-- A character that separates does not change the token before it. -/
theorem read_append {first : Char} (hfirst : first ≠ '\n') (tail more : List Char) :
    (read first tail).Outlasts (read first (tail ++ x :: more)) x more := by
  unfold read
  rw [if_neg hfirst, if_neg hfirst]
  cases hkind : TokenKind.punctuation.lookup first with
  | some kind =>
    have hentry := mem_of_lookup hkind
    exact Or.inl ⟨kind, .bare, _, rfl, TokenKind.punctuation_ne_newline _ hentry, rfl⟩
  | none =>
    dsimp only
    by_cases hnumber : startsNumber first = true
    · rw [if_pos hnumber, if_pos hnumber]
      exact Or.inl ⟨.number, _, _, rfl, by simp, number_append hx (first :: tail) more⟩
    · rw [if_neg hnumber, if_neg hnumber]
      by_cases hname : startsName first = true
      · rw [if_pos hname, if_pos hname]
        exact Or.inl ⟨.identifier, _, _, rfl, by simp, name_append hx (first :: tail) more⟩
      · rw [if_neg hname, if_neg hname]
        by_cases hop : beginsOperator [first] = true
        · rw [if_pos hop, if_pos hop]
          exact operator_append hx first tail more
        · rw [if_neg hop, if_neg hop]
          exact Or.inr ⟨_, _, rfl, rfl⟩

end Separates

/-! ## Blanks separate -/

/-- No character of a class is blank if no blank code point is one of the class. -/
theorem isBlank_of_inRanges (ranges : List (Nat × Nat)) {c : Char}
    (hnone : ∀ r ∈ Text.blankRanges, ∀ k ≤ r.2 - r.1, Text.inRanges ranges (r.1 + k) = false)
    (h : Text.inRanges ranges c.toNat = true) : Text.isBlank c = false := by
  by_contra hblank
  obtain ⟨r, hr, hfirst, hlast⟩ := Text.exists_mem_of_inRanges (Bool.not_eq_false _ ▸ hblank)
  have hother := hnone r hr (c.toNat - r.1) (by omega)
  rw [Nat.add_sub_cancel' hfirst, h] at hother
  cases hother

theorem isBlank_of_isLetter {c : Char} (h : Text.isLetter c = true) : Text.isBlank c = false :=
  isBlank_of_inRanges Text.letterRanges (by decide +kernel) h

theorem isBlank_of_isNumeral {c : Char} (h : Text.isNumeral c = true) : Text.isBlank c = false :=
  isBlank_of_inRanges Text.numeralRanges (by decide +kernel) h

theorem isBlank_of_continuesName {c : Char} (h : continuesName c = true) :
    Text.isBlank c = false := by
  rcases Bool.or_eq_true_iff.1 h with hstart | hnumeral
  · rcases Bool.or_eq_true_iff.1 hstart with hunderscore | hletter
    · rw [beq_iff_eq.1 hunderscore]
      decide
    · exact isBlank_of_isLetter hletter
  · exact isBlank_of_isNumeral hnumeral

/-- Blank characters lie below or above all digits. -/
theorem toNat_of_isBlank {c : Char} (h : Text.isBlank c = true) :
    c.toNat ≤ 0x20 ∨ 0x85 ≤ c.toNat := by
  have hranges : ∀ r ∈ Text.blankRanges, r.2 ≤ 0x20 ∨ 0x85 ≤ r.1 := by decide
  obtain ⟨r, hr, hfirst, hlast⟩ := Text.exists_mem_of_inRanges h
  have hrange := hranges r hr
  omega

theorem toNat_of_isDigitOf {form : NumberForm} {c : Char} (h : isDigitOf form c = true) :
    0x30 ≤ c.toNat ∧ c.toNat ≤ 0x66 := by
  have hbetween : ∀ a b : Char, 0x30 ≤ a.toNat → b.toNat ≤ 0x66 → a ≤ c ∧ c ≤ b →
      0x30 ≤ c.toNat ∧ c.toNat ≤ 0x66 := by
    intro a b ha hb ⟨hac, hcb⟩
    have hac' : a.toNat ≤ c.toNat := hac
    have hcb' : c.toNat ≤ b.toNat := hcb
    omega
  have hdecimal : c.isDigit = true → 0x30 ≤ c.toNat ∧ c.toNat ≤ 0x66 := by
    intro hdigit
    simp only [Char.isDigit, Bool.and_eq_true, decide_eq_true_eq] at hdigit
    exact hbetween '0' '9' (by decide) (by decide) hdigit
  cases form with
  | bare => exact hdecimal h
  | decimal => exact hdecimal h
  | binary =>
    rcases Bool.or_eq_true_iff.1 h with hzero | hone
    · rw [beq_iff_eq.1 hzero]
      decide
    · rw [beq_iff_eq.1 hone]
      decide
  | octal =>
    simp only [isDigitOf, Bool.and_eq_true, decide_eq_true_eq] at h
    exact hbetween '0' '7' (by decide) (by decide) h
  | hexadecimal =>
    simp only [isDigitOf, Bool.or_eq_true, Bool.and_eq_true, decide_eq_true_eq] at h
    rcases h with (hdigit | hlower) | hupper
    · exact hdecimal hdigit
    · exact hbetween 'a' 'f' (by decide) (by decide) hlower
    · exact hbetween 'A' 'F' (by decide) (by decide) hupper

/-- No token goes on with a blank. -/
theorem separates_of_isSkipped {x : Char} (h : isSkipped x = true) : Separates x := by
  have hsigns : ∀ entry ∈ TokenKind.operators, entry.1.all (fun c => !isSkipped c) = true := by
    decide
  have hblank : Text.isBlank x = true := (Bool.and_eq_true_iff.1 h).2
  have hcode := toNat_of_isBlank hblank
  refine ⟨?name, fun form => ?digit, ?point, fun entry hentry hmem => ?operator⟩
  case name =>
    by_contra hname
    simp [isBlank_of_continuesName (Bool.not_eq_false _ ▸ hname)] at hblank
  case digit =>
    by_contra hdigit
    have hrange := toNat_of_isDigitOf (Bool.not_eq_false _ ▸ hdigit)
    omega
  case point =>
    rintro rfl
    exact absurd hblank (by decide)
  case operator =>
    have hsign := List.all_eq_true.1 (hsigns entry hentry) x hmem
    simp [h] at hsign

end Head

end LineCalculator
