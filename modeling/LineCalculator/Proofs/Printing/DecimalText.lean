import Mathlib.Data.List.DropRight
import LineCalculator.Decimal.Layout
import LineCalculator.Proofs.Numbers.Literals

/-!
# What the text of a decimal denotes

A decimal is written positionally or with an exponent.  In both styles the text denotes the
decimal: what stands before the exponent is read as the digits of a number literal are, and the
exponent says how often this is multiplied by ten (`Decimal.textValue_layout`).

A text in positional style is besides the lexeme of a number literal, with a digit first
(`Decimal.exists_positional`).
-/

namespace LineCalculator

open Literal

/-! ## Digits of natural numbers -/

namespace Literal

theorem allDigits_toDigits (n : Nat) : AllDigits .bare (Nat.toDigits 10 n) := fun _ hc =>
  Nat.isDigit_of_mem_toDigits (by decide) (by decide) hc

theorem integerValue_eq_ofDigitChars {ds : List Char} (hds : AllDigits .bare ds) :
    integerValue 10 ds = Nat.ofDigitChars 10 ds 0 := by
  unfold integerValue Nat.ofDigitChars
  refine List.foldl_ext _ _ 0 fun n c hc => ?_
  have hdigit : c.isDigit = true := hds c hc
  rw [digitValue, if_pos hdigit, Nat.mul_comm]
  rfl

theorem integerValue_toDigits (n : Nat) : integerValue 10 (Nat.toDigits 10 n) = n := by
  rw [integerValue_eq_ofDigitChars (allDigits_toDigits n), Nat.ofDigitChars_ten_toDigits]

theorem allDigits_replicate_zero (k : Nat) : AllDigits .bare (List.replicate k '0') := by
  intro c hc
  rw [List.eq_of_mem_replicate hc]
  decide

theorem integerValue_replicate_zero (k : Nat) : integerValue 10 (List.replicate k '0') = 0 := by
  rw [integerValue_eq_ofDigitChars (allDigits_replicate_zero k), Nat.ofDigitChars_replicate_zero,
    Nat.mul_zero]

theorem AllDigits.append {form : NumberForm} {xs ys : List Char} (hxs : AllDigits form xs)
    (hys : AllDigits form ys) : AllDigits form (xs ++ ys) := fun c hc =>
  (List.mem_append.1 hc).elim (hxs c) (hys c)

end Literal

namespace Decimal

/-! ## The digits of a decimal -/

/-- The zeros that only fill places are cut off from the digits. -/
theorem exists_toDigits_eq (d : Decimal) :
    ∃ k, Nat.toDigits 10 d.digits = d.significant ++ List.replicate k '0' := by
  have hzeros : ∀ c ∈ (Nat.toDigits 10 d.digits).rtakeWhile (· == '0'), c = '0' := fun c hc =>
    beq_iff_eq.1 (List.mem_rtakeWhile_imp (p := (· == '0')) hc)
  have hsplit : Nat.toDigits 10 d.digits =
      d.significant ++ (Nat.toDigits 10 d.digits).rtakeWhile (· == '0') :=
    List.rdropWhile_append_rtakeWhile.symm
  exact ⟨_, hsplit.trans (congrArg (d.significant ++ ·) (List.eq_replicate_of_mem hzeros))⟩

theorem allDigits_significant (d : Decimal) : AllDigits .bare d.significant := by
  obtain ⟨k, hk⟩ := d.exists_toDigits_eq
  intro c hc
  exact allDigits_toDigits d.digits c (hk ▸ List.mem_append_left _ hc)

/-- The digits that are written and the place of the point are the decimal. -/
theorem value_eq_significant (d : Decimal) :
    d.value = integerValue 10 d.significant * 10 ^ (d.point - d.significant.length) := by
  obtain ⟨k, hk⟩ := d.exists_toDigits_eq
  have hdigits : d.digits = integerValue 10 d.significant * 10 ^ k := by
    rw [← integerValue_toDigits d.digits, hk, integerValue_append, integerValue_replicate_zero,
      List.length_replicate, Nat.add_zero]
  have hpoint : d.point - d.significant.length = k + d.exponent := by
    unfold point
    rw [hk, List.length_append, List.length_replicate]
    omega
  rw [hpoint, zpow_add₀ (by norm_num), ← mul_assoc, zpow_natCast, value, hdigits]
  push_cast
  rfl

/-! ## The positional style -/

/-- A positional text has digits on both sides of its point, and they denote the digits with the
point where it is to be. -/
theorem exists_positional {ds : List Char} (hds : AllDigits .bare ds) (point : Int) :
    ∃ whole fraction, positional ds point = whole ++ '.' :: fraction ∧ whole ≠ [] ∧
      AllDigits .bare whole ∧ AllDigits .bare fraction ∧
      denoted 10 (whole ++ '.' :: fraction) = integerValue 10 ds * 10 ^ (point - ds.length) := by
  have hzero : AllDigits .bare ['0'] := allDigits_replicate_zero 1
  unfold positional
  by_cases hpoint : point ≤ 0
  · obtain ⟨k, rfl⟩ : ∃ k : Nat, point = -k := ⟨(-point).toNat, by omega⟩
    have hfraction := (allDigits_replicate_zero k).append hds
    rw [if_pos hpoint, neg_neg, Int.toNat_natCast]
    refine ⟨['0'], List.replicate k '0' ++ ds, rfl, by simp, hzero, hfraction, ?_⟩
    rw [denoted_point hzero hfraction (by decide), ← List.append_assoc, integerValue_append,
      integerValue_append, integerValue_replicate_zero, List.length_append,
      List.length_replicate, show -(k : Int) - ds.length = -((k + ds.length : Nat) : Int) by omega,
      zpow_neg, zpow_natCast, div_eq_mul_inv]
    simp [integerValue, digitValue]
  · obtain ⟨n, rfl⟩ : ∃ n : Nat, point = n := ⟨point.toNat, by omega⟩
    rw [if_neg hpoint, Int.toNat_natCast]
    dsimp only
    by_cases hlong : n < ds.length
    · -- the point stands among the digits
      have hwhole : AllDigits .bare (ds.take n) := fun c hc => hds c (List.mem_of_mem_take hc)
      have hfraction : AllDigits .bare (ds.drop n) := fun c hc => hds c (List.mem_of_mem_drop hc)
      refine ⟨ds.take n, ds.drop n, ?_, ?_, hwhole, hfraction, ?_⟩
      · rw [Nat.sub_eq_zero_of_le (Nat.le_of_lt hlong)]
        simp [List.isEmpty_iff, Nat.not_le.2 hlong]
      · intro hnil
        rcases List.take_eq_nil_iff.1 hnil with hzero | hnone
        · omega
        · simp [hnone] at hlong
      · rw [denoted_point hwhole hfraction (by decide), List.take_append_drop, List.length_drop,
          show (n : Int) - ds.length = -((ds.length - n : Nat) : Int) by omega, zpow_neg,
          zpow_natCast, div_eq_mul_inv]
        rfl
    · -- the digits come to an end at the point or before it
      have hle := Nat.le_of_not_lt hlong
      have hwhole := hds.append (allDigits_replicate_zero (n - ds.length))
      refine ⟨ds ++ List.replicate (n - ds.length) '0', ['0'], ?_, ?_, hwhole, hzero, ?_⟩
      · rw [List.take_of_length_le hle, List.drop_of_length_le hle]
        rfl
      · intro hnil
        have hlength := congrArg List.length hnil
        rw [List.length_append, List.length_replicate, List.length_nil] at hlength
        omega
      · rw [denoted_point hwhole hzero (by decide), integerValue_append, integerValue_append,
          integerValue_replicate_zero, List.length_replicate,
          show (n : Int) - ds.length = ((n - ds.length : Nat) : Int) by omega, zpow_natCast]
        simp [integerValue, digitValue]

/-! ## The style with an exponent -/

/-- What a text states behind its digits, if it states an exponent. -/
def statedExponent : List Char → Int
  | 'e' :: '-' :: size => -(integerValue 10 size)
  | 'e' :: '+' :: size => integerValue 10 size
  | _ => 0

/-- The rational that a text denotes, in either style. -/
def textValue (text : List Char) : ℚ :=
  denoted 10 (text.takeWhile (· != 'e')) * 10 ^ statedExponent (text.dropWhile (· != 'e'))

theorem textValue_append {mantissa : List Char} (h : Lexeme .bare mantissa) (size : List Char) :
    textValue (mantissa ++ 'e' :: size) =
      denoted 10 mantissa * 10 ^ statedExponent ('e' :: size) := by
  have hne : ∀ c ∈ mantissa, (c != 'e') = true := fun c hc =>
    bne_iff_ne.2 (h.ne (by decide) (by decide) c hc)
  unfold textValue
  rw [List.takeWhile_append_of_pos hne, List.dropWhile_append_of_pos hne]
  simp

theorem textValue_eq_denoted {text : List Char} (h : Lexeme .bare text) :
    textValue text = denoted 10 text := by
  have hne : ∀ c ∈ text, (c != 'e') = true := fun c hc =>
    bne_iff_ne.2 (h.ne (by decide) (by decide) c hc)
  unfold textValue
  rw [List.takeWhile_eq_self_iff.2 hne, List.dropWhile_eq_nil_iff.2 hne]
  simp [statedExponent]

/-- The digits with the point behind the first of them. -/
def mantissa (ds : List Char) : List Char :=
  ds.take 1 ++ if ds.length ≤ 1 then [] else '.' :: ds.drop 1

/-- An exponent with its sign and two digits at least. -/
def exponentText (exponent : Int) : List Char :=
  (if exponent < 0 then '-' else '+') :: if (Nat.toDigits 10 exponent.natAbs).length < 2 then
    '0' :: Nat.toDigits 10 exponent.natAbs else Nat.toDigits 10 exponent.natAbs

theorem scientific_eq (ds : List Char) (point : Int) :
    scientific ds point = mantissa ds ++ 'e' :: exponentText (point - 1) := rfl

theorem mantissa_spec {ds : List Char} (hds : AllDigits .bare ds) :
    Lexeme .bare (mantissa ds) ∧
      denoted 10 (mantissa ds) = integerValue 10 ds * 10 ^ (1 - ds.length : Int) := by
  match ds with
  | [] => exact ⟨.digits hds, by simp [mantissa, denoted, integerValue]⟩
  | [c] => exact ⟨.digits hds, by simpa [mantissa] using denoted_digits 10 hds⟩
  | c :: d :: rest =>
    have hfirst : AllDigits .bare [c] := List.forall_mem_singleton.2 (hds c List.mem_cons_self)
    have hrest : AllDigits .bare (d :: rest) := fun x hx => hds x (List.mem_cons_of_mem c hx)
    have htext : mantissa (c :: d :: rest) = [c] ++ '.' :: d :: rest := by simp [mantissa]
    have hexponent : (1 - (c :: d :: rest).length : Int) = -((d :: rest).length : Nat) := by
      rw [List.length_cons]
      omega
    rw [htext, denoted_point hfirst hrest (by decide), hexponent, zpow_neg, zpow_natCast,
      div_eq_mul_inv]
    exact ⟨.point rfl hfirst hrest, rfl⟩

theorem statedExponent_exponentText (exponent : Int) :
    statedExponent ('e' :: exponentText exponent) = exponent := by
  have hsize : integerValue 10 (if (Nat.toDigits 10 exponent.natAbs).length < 2 then
      '0' :: Nat.toDigits 10 exponent.natAbs else Nat.toDigits 10 exponent.natAbs) =
        exponent.natAbs := by
    split
    case isTrue =>
      rw [integerValue_cons, integerValue_toDigits]
      simp [digitValue]
    case isFalse => exact integerValue_toDigits _
  unfold exponentText
  by_cases hneg : exponent < 0
  · rw [if_pos hneg, statedExponent, hsize]
    omega
  · rw [if_neg hneg, statedExponent, hsize]
    omega

theorem textValue_scientific {ds : List Char} (hds : AllDigits .bare ds) (point : Int) :
    textValue (scientific ds point) = integerValue 10 ds * 10 ^ (point - ds.length) := by
  obtain ⟨hlexeme, hdenoted⟩ := mantissa_spec hds
  rw [scientific_eq, textValue_append hlexeme, statedExponent_exponentText, hdenoted, mul_assoc,
    ← zpow_add₀ (by norm_num)]
  congr 2
  omega

/-! ## Both styles -/

/-- **The text of a decimal denotes it.** -/
theorem textValue_layout (range : PlaceRange) (d : Decimal) :
    textValue (d.layout range) = d.value := by
  have hds := d.allDigits_significant
  rw [value_eq_significant]
  unfold layout
  split
  case isTrue =>
    obtain ⟨whole, fraction, htext, -, hwhole, hfraction, hdenoted⟩ :=
      exists_positional hds d.point
    rw [htext, textValue_eq_denoted (.point rfl hwhole hfraction), hdenoted]
  case isFalse => exact textValue_scientific hds d.point

/-- The text of a decimal begins with a digit, a point or an exponent. -/
theorem head?_layout_ne {c : Char} (hdigit : Head.isDigitOf .bare c = false) (hpoint : c ≠ '.')
    (hexponent : c ≠ 'e') (range : PlaceRange) (d : Decimal) :
    (d.layout range).head? ≠ some c := by
  have hds := d.allDigits_significant
  unfold layout
  split
  case isTrue =>
    obtain ⟨whole, fraction, htext, -, hwhole, hfraction, -⟩ := exists_positional hds d.point
    rw [htext]
    exact fun hc => Lexeme.ne (.point rfl hwhole hfraction) hdigit hpoint c
      (List.mem_of_mem_head? hc) rfl
  case isFalse =>
    have hmantissa := (mantissa_spec hds).1.ne hdigit hpoint
    rw [scientific_eq]
    generalize mantissa d.significant = ms at hmantissa ⊢
    cases ms with
    | nil => exact fun hc => hexponent (Option.some.inj hc).symm
    | cons first rest =>
      exact fun hc => hmantissa first List.mem_cons_self (Option.some.inj hc)

end Decimal

end LineCalculator
