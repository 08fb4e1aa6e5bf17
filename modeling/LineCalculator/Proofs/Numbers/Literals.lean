import Mathlib.Data.List.TakeWhile
import LineCalculator.Proofs.Numbers.Nearest
import LineCalculator.Proofs.Scanning.Steps
import LineCalculator.Token.Literal

/-!
# The values of number literals

What the digits of a number denote is said place by place: a digit before the point counts as
often as the radix to the number of digits between it and the point says, and the digits behind
the point are divided by the radix once for every place (`Literal.denoted`).  A number token has
no value if it has no digit, or if its form is one of integers and the integer does not fit 64
bits; otherwise its value is the number that is nearest to what its digits denote
(`literals_are_nearest`).

## How a lexeme is taken apart

The lexeme of a number is some digits, or some digits, a point and some digits
(`Literal.Lexeme`).  In both cases it denotes one integer, that of all its digits without the
point, over a power of the radix (`Literal.denoted_point`), and this is the decimal that is
read.  Reading a decimal rounds its value (`Decimal.toBinary64_eq_ofRat`).
-/

namespace LineCalculator

open Binary64

/-! ## Reading a decimal -/

namespace Decimal

/-- The rational that a decimal is. -/
def value (d : Decimal) : ℚ := d.digits * 10 ^ d.exponent

/-- **Reading a decimal rounds its value.** -/
theorem toBinary64_eq_ofRat (negative : Bool) (d : Decimal) :
    d.toBinary64 negative = ofRat negative d.value := by
  obtain ⟨digits, exponent⟩ := d
  unfold toBinary64 value
  dsimp only
  obtain ⟨k, rfl | rfl⟩ := exponent.eq_nat_or_neg
  · rw [if_neg (by omega), Int.toNat_natCast, Nat.pow_eq,
      ofUnitQuotient_mul_unitsPerOne negative _ Nat.one_pos]
    congr 1
    push_cast
    rw [div_one, zpow_natCast]
  · by_cases hk : -(k : Int) < 0
    · rw [if_pos hk, InvolutiveNeg.neg_neg, Int.toNat_natCast, Nat.pow_eq,
        ofUnitQuotient_mul_unitsPerOne negative _ (Nat.pow_pos (by decide))]
      congr 1
      push_cast
      rw [zpow_neg, zpow_natCast, div_eq_mul_inv]
    · obtain rfl : k = 0 := by omega
      rw [if_neg hk, ofUnitQuotient_mul_unitsPerOne negative _ Nat.one_pos]
      simp

end Decimal

namespace Literal

/-! ## What digits denote -/

/-- The digits of all radices, in their order. -/
def numerals : List Char :=
  ['0', '1', '2', '3', '4', '5', '6', '7', '8', '9', 'a', 'b', 'c', 'd', 'e', 'f']

/-- What a digit stands for: how many digits come before it, letters of either case alike. -/
def numeral (c : Char) : Nat := numerals.idxOf c.toLower

/-- What some digits behind a point denote. -/
def fractionValue (radix : Nat) : List Char → ℚ
  | [] => 0
  | c :: rest => (numeral c + fractionValue radix rest) / radix

/-- What some digits with a point among them denote. -/
def denoted (radix : Nat) : List Char → ℚ
  | [] => 0
  | c :: rest =>
    if c = '.' then fractionValue radix rest
    else numeral c * radix ^ (rest.takeWhile (· != '.')).length + denoted radix rest

/-- All of some characters are digits of a form. -/
def AllDigits (form : NumberForm) (text : List Char) : Prop :=
  ∀ c ∈ text, Head.isDigitOf form c = true

theorem ne_point_of_isDigitOf {form : NumberForm} {c : Char} (h : Head.isDigitOf form c = true) :
    c ≠ '.' := by
  rintro rfl
  simp [Head.isDigitOf_point] at h

/-- No digit is a point, in the way in which lexemes are searched for one. -/
theorem AllDigits.bne_point {form : NumberForm} {text : List Char} (h : AllDigits form text) :
    ∀ c ∈ text, (c != '.') = true := fun c hc => bne_iff_ne.2 (ne_point_of_isDigitOf (h c hc))

/-- A digit of any form is one of the hexadecimal digits, and these are characters of the first
hundred and three. -/
theorem hexadecimal_of_isDigitOf {form : NumberForm} {c : Char}
    (h : Head.isDigitOf form c = true) :
    Head.isDigitOf .hexadecimal c = true ∧ c.toNat < 103 := by
  have hhex : Head.isDigitOf .hexadecimal c = true := by
    cases form with
    | bare => simp_all [Head.isDigitOf]
    | decimal => simp_all [Head.isDigitOf]
    | hexadecimal => exact h
    | binary =>
      rcases Bool.or_eq_true_iff.1 h with hzero | hone
      · rw [beq_iff_eq.1 hzero]
        decide
      · rw [beq_iff_eq.1 hone]
        decide
    | octal =>
      simp only [Head.isDigitOf, Char.isDigit, Bool.and_eq_true, Bool.or_eq_true,
        decide_eq_true_eq] at h ⊢
      exact Or.inl (Or.inl ⟨h.1, Nat.le_trans h.2 (by decide)⟩)
  refine ⟨hhex, ?_⟩
  simp only [Head.isDigitOf, Char.isDigit, Bool.and_eq_true, Bool.or_eq_true, decide_eq_true_eq,
    Char.le_def, UInt32.le_iff_toNat_le] at hhex
  rcases hhex with (⟨-, hlast⟩ | ⟨-, hlast⟩) | ⟨-, hlast⟩
  · exact Nat.lt_of_le_of_lt hlast (by decide)
  · exact Nat.lt_of_le_of_lt hlast (by decide)
  · exact Nat.lt_of_le_of_lt hlast (by decide)

/-- A character with a small number is one of finitely many. -/
theorem exists_ofNat_eq {c : Char} {bound : Nat} (h : c.toNat < bound) :
    ∃ n < bound, Char.ofNat n = c := ⟨c.toNat, h, Char.ofNat_toNat c⟩

/-- A digit is worth as much as its place among the digits says. -/
theorem digitValue_eq_numeral {form : NumberForm} {c : Char}
    (h : Head.isDigitOf form c = true) : digitValue c = numeral c := by
  have hall : ∀ n < 103, Head.isDigitOf .hexadecimal (Char.ofNat n) = true →
      digitValue (Char.ofNat n) = numeral (Char.ofNat n) := by decide +kernel
  obtain ⟨hhex, hlt⟩ := hexadecimal_of_isDigitOf h
  obtain ⟨n, hn, rfl⟩ := exists_ofNat_eq hlt
  exact hall n hn hhex

/-! ## Integers of digits -/

section Radix

variable {form : NumberForm} {radix : Nat}

theorem integerValue_append (xs ys : List Char) :
    integerValue radix (xs ++ ys) =
      integerValue radix xs * radix ^ ys.length + integerValue radix ys := by
  have hstart : ∀ n, ys.foldl (fun n c => n * radix + digitValue c) n =
      n * radix ^ ys.length + integerValue radix ys := by
    unfold integerValue
    induction ys with
    | nil => simp
    | cons c ys ih =>
      intro n
      rw [List.foldl_cons, List.foldl_cons, ih, ih (0 * radix + digitValue c), List.length_cons]
      ring
  unfold integerValue
  rw [List.foldl_append, hstart]
  rfl

theorem integerValue_cons (c : Char) (ds : List Char) :
    integerValue radix (c :: ds) = digitValue c * radix ^ ds.length + integerValue radix ds := by
  have hfirst : integerValue radix [c] = digitValue c := by simp [integerValue]
  rw [← hfirst]
  exact integerValue_append [c] ds

theorem fractionValue_eq {ds : List Char} (hds : AllDigits form ds) (hradix : 0 < radix) :
    fractionValue radix ds = (integerValue radix ds : ℚ) / radix ^ ds.length := by
  have hradix' : (radix : ℚ) ≠ 0 := Nat.cast_ne_zero.2 (Nat.ne_of_gt hradix)
  induction ds with
  | nil => simp [fractionValue, integerValue]
  | cons c ds ih =>
    obtain ⟨hc, hds⟩ := List.forall_mem_cons.1 hds
    rw [fractionValue, ih hds, integerValue_cons, ← digitValue_eq_numeral hc, List.length_cons]
    push_cast
    field_simp
    ring

/-- Digits without a point denote an integer. -/
theorem denoted_digits (radix : Nat) {ds : List Char} (hds : AllDigits form ds) :
    denoted radix ds = integerValue radix ds := by
  induction ds with
  | nil => simp [denoted, integerValue]
  | cons c ds ih =>
    obtain ⟨hc, hds⟩ := List.forall_mem_cons.1 hds
    rw [denoted, if_neg (ne_point_of_isDigitOf hc),
      List.takeWhile_eq_self_iff.2 (AllDigits.bne_point hds), ih hds, integerValue_cons,
      ← digitValue_eq_numeral hc]
    push_cast
    rfl

/-- Digits with a point among them denote the integer of all digits, over the radix to the
number of those behind the point. -/
theorem denoted_point {whole fraction : List Char} (hwhole : AllDigits form whole)
    (hfraction : AllDigits form fraction) (hradix : 0 < radix) :
    denoted radix (whole ++ '.' :: fraction) =
      (integerValue radix (whole ++ fraction) : ℚ) / radix ^ fraction.length := by
  have hradix' : (radix : ℚ) ≠ 0 := Nat.cast_ne_zero.2 (Nat.ne_of_gt hradix)
  induction whole with
  | nil =>
    rw [List.nil_append, List.nil_append, denoted, if_pos rfl, fractionValue_eq hfraction hradix]
  | cons c whole ih =>
    obtain ⟨hc, hwhole⟩ := List.forall_mem_cons.1 hwhole
    have htake : (whole ++ '.' :: fraction).takeWhile (· != '.') = whole := by
      rw [List.takeWhile_append_of_pos (AllDigits.bne_point hwhole)]
      simp
    rw [List.cons_append, denoted, if_neg (ne_point_of_isDigitOf hc), htake, ih hwhole,
      List.cons_append, integerValue_cons, ← digitValue_eq_numeral hc, List.length_append]
    push_cast
    field_simp
    ring

end Radix

/-! ## The lexemes of numbers -/

/-- The lexeme of a number of a form. -/
inductive Lexeme (form : NumberForm) : List Char → Prop
  | digits {whole : List Char} (hwhole : AllDigits form whole) : Lexeme form whole
  | point {whole fraction : List Char} (hallowed : form.hasPoint = true)
      (hwhole : AllDigits form whole) (hfraction : AllDigits form fraction) :
      Lexeme form (whole ++ '.' :: fraction)

theorem Lexeme.of_wellFormed {u : Unplaced} (h : u.WellFormed) (hkind : u.kind = .number) :
    Lexeme u.form u.lexeme := by
  cases h with
  | newline => cases hkind
  | punctuation entry => exact absurd hkind (TokenKind.punctuation_ne_number _ entry)
  | operator entry => exact absurd hkind (TokenKind.operators_ne_number _ entry)
  | name => cases hkind
  | @number form lexeme digits once allowed =>
    by_cases hpoint : '.' ∈ lexeme
    · obtain ⟨whole, fraction, rfl⟩ := List.append_of_mem hpoint
      have hcount : whole.count '.' = 0 ∧ fraction.count '.' = 0 := by
        rw [List.count_append, List.count_cons_self] at once
        omega
      have hdigits : ∀ ds, ds.count '.' = 0 → (∀ c ∈ ds, c ∈ whole ++ '.' :: fraction) →
          AllDigits form ds := fun ds hds hmem c hc =>
        (digits c (hmem c hc)).resolve_right fun heq => List.count_eq_zero.1 hds (heq ▸ hc)
      exact .point (allowed hpoint) (hdigits whole hcount.1 (by simp_all))
        (hdigits fraction hcount.2 (by simp_all))
    · exact .digits fun c hc => (digits c hc).resolve_right fun heq => hpoint (heq ▸ hc)

/-- The characters of a lexeme are digits and the point. -/
theorem Lexeme.digit_or_point {form : NumberForm} {lexeme : List Char} (h : Lexeme form lexeme) :
    ∀ c ∈ lexeme, Head.isDigitOf form c = true ∨ c = '.' := by
  cases h with
  | digits hwhole => exact fun c hc => Or.inl (hwhole c hc)
  | point _ hwhole hfraction =>
    intro c hc
    rcases List.mem_append.1 hc with hc | hc
    · exact Or.inl (hwhole c hc)
    · exact (List.mem_cons.1 hc).symm.imp_left (hfraction c)

theorem Lexeme.ne {form : NumberForm} {lexeme : List Char} {d : Char} (h : Lexeme form lexeme)
    (hdigit : Head.isDigitOf form d = false) (hpoint : d ≠ '.') : ∀ c ∈ lexeme, c ≠ d := by
  rintro c hc rfl
  rcases h.digit_or_point c hc with hc | rfl
  · simp [hdigit] at hc
  · exact hpoint rfl

/-- A number with such a lexeme is one of the language. -/
theorem Lexeme.wellFormed {form : NumberForm} {lexeme : List Char} (h : Lexeme form lexeme)
    (hshown : form = .bare → lexeme ≠ []) : Unplaced.WellFormed ⟨.number, form, lexeme⟩ := by
  have hdigits := h.digit_or_point
  have hnone : ∀ {ds : List Char}, AllDigits form ds → '.' ∉ ds := fun hds hmem =>
    ne_point_of_isDigitOf (hds '.' hmem) rfl
  cases h with
  | digits hwhole =>
    have honce : lexeme.count '.' ≤ 1 := by
      rw [List.count_eq_zero.2 (hnone hwhole)]
      exact Nat.zero_le 1
    exact .number hdigits honce (fun hmem => absurd hmem (hnone hwhole)) hshown
  | @point whole fraction hallowed hwhole hfraction =>
    have honce : (whole ++ '.' :: fraction).count '.' ≤ 1 := by
      rw [List.count_append, List.count_cons_self, List.count_eq_zero.2 (hnone hwhole),
        List.count_eq_zero.2 (hnone hfraction)]
    exact .number hdigits honce (fun _ => hallowed) hshown

/-! ## The values of lexemes -/

theorem decimal?_digits {form : NumberForm} {whole : List Char} (hwhole : AllDigits form whole) :
    decimal? whole = if whole = [] then none else some ⟨integerValue 10 whole, 0⟩ := by
  unfold decimal?
  rw [List.takeWhile_eq_self_iff.2 hwhole.bne_point, List.dropWhile_eq_nil_iff.2 hwhole.bne_point]
  simp

theorem decimal?_point {form : NumberForm} {whole fraction : List Char}
    (hwhole : AllDigits form whole) :
    decimal? (whole ++ '.' :: fraction) = if whole = [] ∧ fraction = [] then none
      else some ⟨integerValue 10 (whole ++ fraction), -(fraction.length : Int)⟩ := by
  unfold decimal?
  rw [List.takeWhile_append_of_pos hwhole.bne_point,
    List.dropWhile_append_of_pos hwhole.bne_point]
  simp

/-- Some characters have a digit of a form among them. -/
def HasDigit (form : NumberForm) (text : List Char) : Prop :=
  ∃ c ∈ text, Head.isDigitOf form c = true

theorem AllDigits.hasDigit_iff {form : NumberForm} {ds : List Char} (hds : AllDigits form ds) :
    HasDigit form ds ↔ ds ≠ [] := by
  constructor
  · rintro ⟨c, hc, -⟩
    exact List.ne_nil_of_mem hc
  · intro hne
    obtain ⟨c, rest, rfl⟩ := List.exists_cons_of_ne_nil hne
    exact ⟨c, List.mem_cons_self, hds c List.mem_cons_self⟩

theorem hasDigit_point_iff {form : NumberForm} {whole fraction : List Char}
    (hwhole : AllDigits form whole) (hfraction : AllDigits form fraction) :
    HasDigit form (whole ++ '.' :: fraction) ↔ ¬ (whole = [] ∧ fraction = []) := by
  have hapart : HasDigit form (whole ++ '.' :: fraction) ↔
      HasDigit form whole ∨ HasDigit form fraction := by
    simp [HasDigit, or_and_right, exists_or, Head.isDigitOf_point]
  rw [hapart, hwhole.hasDigit_iff, hfraction.hasDigit_iff, not_and_or]

/-- A lexeme of a form that allows a point has a value if it has a digit, and the value is what
it denotes, rounded. -/
theorem value?_of_hasPoint {form : NumberForm} {lexeme : List Char} (h : Lexeme form lexeme)
    (hpoint : form.hasPoint = true) :
    HasDigit form lexeme ∧
        value? form lexeme = some (ofRat false (denoted form.radix lexeme)) ∨
      ¬ HasDigit form lexeme ∧ value? form lexeme = none := by
  have hradix : form.radix = 10 := by
    cases form <;> first | rfl | cases hpoint
  unfold value?
  rw [if_pos hpoint, hradix]
  cases h with
  | digits hwhole =>
    rw [hwhole.hasDigit_iff, decimal?_digits hwhole, denoted_digits _ hwhole]
    by_cases hnone : lexeme = []
    · exact Or.inr ⟨not_not.2 hnone, by rw [if_pos hnone]; rfl⟩
    · refine Or.inl ⟨hnone, ?_⟩
      rw [if_neg hnone, Option.map_some, Decimal.toBinary64_eq_ofRat]
      simp [Decimal.value]
  | @point whole fraction _ hwhole hfraction =>
    rw [hasDigit_point_iff hwhole hfraction, decimal?_point hwhole,
      denoted_point hwhole hfraction (by decide)]
    by_cases hnone : whole = [] ∧ fraction = []
    · exact Or.inr ⟨not_not.2 hnone, by rw [if_pos hnone]; rfl⟩
    · refine Or.inl ⟨hnone, ?_⟩
      rw [if_neg hnone, Option.map_some, Decimal.toBinary64_eq_ofRat]
      simp [Decimal.value, div_eq_mul_inv]

/-- A lexeme of a form of integers has a value if it has a digit and what it denotes fits 64
bits, and then the value is what it denotes, rounded. -/
theorem value?_of_not_hasPoint {form : NumberForm} {lexeme : List Char} (h : Lexeme form lexeme)
    (hpoint : form.hasPoint = false) :
    (HasDigit form lexeme ∧ denoted form.radix lexeme < 2 ^ 64) ∧
        value? form lexeme = some (ofRat false (denoted form.radix lexeme)) ∨
      ¬ (HasDigit form lexeme ∧ denoted form.radix lexeme < 2 ^ 64) ∧
        value? form lexeme = none := by
  cases h with
  | point hallowed => exact absurd hallowed (by simp [hpoint])
  | digits hwhole =>
    have hfits : denoted form.radix lexeme < 2 ^ 64 ↔
        integerValue form.radix lexeme < 0x10000000000000000 := by
      rw [denoted_digits _ hwhole]
      exact_mod_cast Iff.rfl
    rw [hwhole.hasDigit_iff, hfits, denoted_digits _ hwhole]
    unfold value? word?
    rw [hpoint, if_neg Bool.false_ne_true]
    by_cases hnone : lexeme = []
    · exact Or.inr ⟨fun hboth => hboth.1 hnone, by rw [hnone]; rfl⟩
    · rw [if_neg (mt List.isEmpty_iff.1 hnone)]
      by_cases hword : integerValue form.radix lexeme < 0x10000000000000000
      · exact Or.inl ⟨⟨hnone, hword⟩, by rw [if_pos hword, Option.map_some, ofNat_eq_ofRat]⟩
      · exact Or.inr ⟨fun hboth => hword hboth.2, by rw [if_neg hword, Option.map_none]⟩

theorem denoted_nonneg {form : NumberForm} {lexeme : List Char} (h : Lexeme form lexeme) :
    0 ≤ denoted form.radix lexeme := by
  cases h with
  | digits hwhole =>
    rw [denoted_digits _ hwhole]
    exact Nat.cast_nonneg _
  | point _ hwhole hfraction =>
    have hradix : 0 < form.radix := by cases form <;> decide
    rw [denoted_point hwhole hfraction hradix]
    exact div_nonneg (Nat.cast_nonneg _) (pow_nonneg (Nat.cast_nonneg _) _)

/-- A lexeme has no digit, or is of a form of integers and does not fit 64 bits. -/
def Rejected (form : NumberForm) (lexeme : List Char) : Prop :=
  ¬ HasDigit form lexeme ∨ form.hasPoint = false ∧ 2 ^ 64 ≤ denoted form.radix lexeme

/-- A lexeme has a value unless it is rejected, and the value is what it denotes, rounded. -/
theorem value?_spec {form : NumberForm} {lexeme : List Char} (h : Lexeme form lexeme) :
    ¬ Rejected form lexeme ∧
        value? form lexeme = some (ofRat false (denoted form.radix lexeme)) ∨
      Rejected form lexeme ∧ value? form lexeme = none := by
  cases hpoint : form.hasPoint with
  | true =>
    have hdigits : Rejected form lexeme ↔ ¬ HasDigit form lexeme := by simp [Rejected, hpoint]
    rw [hdigits, not_not]
    exact value?_of_hasPoint h hpoint
  | false =>
    have hfits : Rejected form lexeme ↔
        ¬ (HasDigit form lexeme ∧ denoted form.radix lexeme < 2 ^ 64) := by
      rw [not_and_or, not_lt, Rejected, hpoint, eq_self, true_and]
    rw [hfits, not_not]
    exact value?_of_not_hasPoint h hpoint

end Literal

/-- **Number literals are converted exactly or rejected.**  A number token has no value if and
only if it has no digit, or denotes an integer in one of the radices two, eight and sixteen that
does not fit 64 bits.  Otherwise its value is the number, not negative, that is nearest to what
its digits denote. -/
theorem literals_are_nearest {s : Scanner} {t : Token} (h : s.scan.1 = .token t)
    (hkind : t.kind = .number) :
    (t.value? = none ↔ (¬ ∃ c ∈ t.lexeme.toList, Head.isDigitOf t.form c = true) ∨
      (t.form.radix = 2 ∨ t.form.radix = 8 ∨ t.form.radix = 16) ∧
        2 ^ 64 ≤ Literal.denoted t.form.radix t.lexeme.toList) ∧
    ∀ x, t.value? = some x →
      x.isNegative = false ∧ IsNearest (Literal.denoted t.form.radix t.lexeme.toList) x := by
  have hlexeme : Literal.Lexeme t.form t.lexeme.toList := by
    have hstep := s.step_scan
    rw [h] at hstep
    generalize s.scan.2 = next at hstep
    cases hstep with
    | token _ _ _ _ _ wellFormed => exact .of_wellFormed wellFormed hkind
  have hradix : (t.form.radix = 2 ∨ t.form.radix = 8 ∨ t.form.radix = 16) ↔
      t.form.hasPoint = false := by
    cases t.form <;> decide
  rw [hradix]
  rcases Literal.value?_spec hlexeme with ⟨haccepted, hvalue⟩ | ⟨hrejected, hvalue⟩
  · have hne : t.value? ≠ none := fun hnone => by cases hvalue.symm.trans hnone
    refine ⟨iff_of_false hne haccepted, fun x hx => ?_⟩
    obtain rfl := Option.some.inj (hvalue.symm.trans hx)
    exact ⟨isNegative_ofRat _ _, isNearest_ofRat false (Literal.denoted_nonneg hlexeme)⟩
  · exact ⟨iff_of_true hvalue hrejected, fun x hx => by cases hvalue.symm.trans hx⟩

/-- An integer half way between two numbers becomes the even one of them. -/
theorem literals_are_nearest_tie :
    (Scanner.ofText "0d9007199254740_993.0").scan.1 =
      .token ⟨.number, "9007199254740993.0", .decimal, .start, 21⟩ ∧
    IsNearest 9007199254740993 (Binary64.ofBits 0x4340000000000000) := by
  have hscan : (Scanner.ofText "0d9007199254740_993.0").scan.1 =
      .token ⟨.number, "9007199254740993.0", .decimal, .start, 21⟩ := by decide +kernel
  have hvalue : Token.value? ⟨.number, "9007199254740993.0", .decimal, .start, 21⟩ =
      some (Binary64.ofBits 0x4340000000000000) := by decide +kernel
  have hdenoted : Literal.denoted 10 "9007199254740993.0".toList = 9007199254740993 := by
    have hsplit : "9007199254740993.0".toList =
        "9007199254740993".toList ++ '.' :: "0".toList := by decide +kernel
    have hwhole : Literal.AllDigits .decimal "9007199254740993".toList :=
      List.all_eq_true.1 (by decide +kernel)
    have hfraction : Literal.AllDigits .decimal "0".toList :=
      List.all_eq_true.1 (by decide +kernel)
    have hinteger : Literal.integerValue 10 ("9007199254740993".toList ++ "0".toList) =
        90071992547409930 := by decide +kernel
    rw [hsplit, Literal.denoted_point hwhole hfraction (by decide), hinteger,
      show "0".toList.length = 1 from rfl]
    norm_num
  exact ⟨hscan, hdenoted ▸ ((literals_are_nearest hscan rfl).2 _ hvalue).2⟩

end LineCalculator
