import Mathlib.Data.Rat.Floor
import LineCalculator.Binary64.Integral
import LineCalculator.Proofs.Numbers.Nearest

/-!
# Rationals that are numbers

A rational that is the value of some number is rounded to that number, so an operation whose
exact result is such a rational loses nothing.  This module says which rationals are known to be
values, and what an operation that yields one of them comes to.

## 1.  Which magnitudes there are

A magnitude is a significand times a power of two, and the other way round every number of at
most 53 binary digits times a power of two is one (`exists_magnitude_eq`).  The condition that a
significand has its leading digit, which makes it unique, is met by moving zeros from the power
to the significand and is no restriction.

Two families follow.  What is left of a magnitude after taking away another as often as
possible is a magnitude (`exists_magnitude_eq_mod`): of the two powers of two the smaller one
divides both, and what is left of the significands has not more digits than they have.  And the
integers around a magnitude are magnitudes (`exists_magnitude_eq_near`): a magnitude that is not
an integer itself is below `2 ^ 52`.

## 2.  Integers

In rationals the second family reads: an integer that is less than one away from the value of a
number is a value, and is made the number that has it (`toRat?_ofInt`).

## 3.  Numbers told by their values

Numbers of one sign with the same value are the same (`eq_of_toRat?_eq`), and comparing numbers
compares their values (`le_eq_decide`).

## 4.  Fractions cut off

`truncated` is a rational without its fraction, which is going down above zero and going up below
it.  On a quotient of magnitudes it is the integer quotient with the sign put before it
(`truncated_signedRat_div`).
-/

namespace LineCalculator

namespace Binary64

/-! ## 1.  Which magnitudes there are -/

/-- Every number of at most 53 binary digits times a power of two is a magnitude. -/
theorem exists_magnitude_eq {m : Nat} (hm : m ≤ 2 * blockSize) (e : Nat) :
    ∃ code, magnitude code = m * 2 ^ e := by
  induction e generalizing m with
  | zero => exact ⟨0 * blockSize + m, magnitude_mul_add ⟨Or.inl rfl, hm⟩⟩
  | succ e ih =>
    by_cases hleading : blockSize ≤ m
    · exact ⟨(e + 1) * blockSize + m, magnitude_mul_add ⟨Or.inr hleading, hm⟩⟩
    · -- the leading digit is missing, so the significand takes a zero from the power
      obtain ⟨code, hcode⟩ := ih (m := m * 2) (by omega)
      exact ⟨code, by rw [hcode, pow_succ', Nat.mul_assoc]⟩

/-- A rank below a finite one is finite. -/
theorem exists_fin_of_le {c : Fin infinityCode} {d : Nat} (h : magnitude d ≤ magnitude c) :
    ∃ d' : Fin infinityCode, magnitude d' = magnitude d :=
  ⟨⟨d, Nat.lt_of_le_of_lt (magnitude_strictMono.le_iff_le.1 h) c.isLt⟩, rfl⟩

/-- **What is left of a magnitude** after taking away another one is a magnitude. -/
theorem exists_magnitude_eq_mod (c : Fin infinityCode) {d : Nat} (hd : 0 < magnitude d) :
    ∃ r : Fin infinityCode, magnitude r = magnitude c % magnitude d := by
  suffices h : ∃ r, magnitude r = magnitude c % magnitude d by
    obtain ⟨r, hr⟩ := h
    obtain ⟨r', hr'⟩ := exists_fin_of_le (c := c) (d := r) (hr ▸ Nat.mod_le _ _)
    exact ⟨r', hr'.trans hr⟩
  obtain ⟨e, m, hc, hm, hmlt⟩ := exists_significand c
  obtain ⟨f, n, rfl, hn, hnlt⟩ := exists_significand d
  rw [magnitude_mul_add hn] at hd ⊢
  rw [hc, magnitude_mul_add hm]
  rcases Nat.le_total e f with hle | hle
  · obtain ⟨k, rfl⟩ := Nat.exists_eq_add_of_le' hle
    rw [pow_add, ← Nat.mul_assoc, Nat.mul_mod_mul_right]
    exact exists_magnitude_eq ((Nat.mod_le m _).trans hmlt.le) e
  · obtain ⟨k, rfl⟩ := Nat.exists_eq_add_of_le' hle
    rw [pow_add, ← Nat.mul_assoc, Nat.mul_mod_mul_right]
    have hrest : m * 2 ^ k % n < n := Nat.mod_lt _ (Nat.pos_of_mul_pos_right hd)
    exact exists_magnitude_eq (hrest.le.trans hnlt.le) f

/-- The number one has a rank. -/
theorem exists_magnitude_eq_unitsPerOne : ∃ one : Fin infinityCode, magnitude one = unitsPerOne :=
  ⟨⟨0x3ff0000000000000, by decide⟩, by decide +kernel⟩

/-- The integers of at most 53 binary digits are magnitudes. -/
theorem exists_magnitude_eq_mul_unitsPerOne {n : Nat} (hn : n ≤ 2 * blockSize) :
    ∃ code : Fin infinityCode, magnitude code = n * unitsPerOne := by
  obtain ⟨code, hcode⟩ := exists_magnitude_eq hn unitPlaces
  rw [← unitsPerOne_eq] at hcode
  have hlast : 2 * blockSize * unitsPerOne < magnitude infinityCode := by decide +kernel
  have hlt : magnitude code < magnitude infinityCode := by
    rw [hcode]
    exact Nat.lt_of_le_of_lt (Nat.mul_le_mul_right unitsPerOne hn) hlast
  exact ⟨⟨code, magnitude_strictMono.lt_iff_lt.1 hlt⟩, hcode⟩

/-- **The integers around a magnitude** are magnitudes. -/
theorem exists_magnitude_eq_near (c : Fin infinityCode) {n : Nat}
    (hlow : magnitude c < (n + 1) * unitsPerOne)
    (hhigh : n * unitsPerOne < magnitude c + unitsPerOne) :
    ∃ d : Fin infinityCode, magnitude d = n * unitsPerOne := by
  by_cases hwhole : magnitude c % unitsPerOne = 0
  · -- the magnitude is an integer, and no other is near it
    have hdiv := Nat.div_add_mod (magnitude c) unitsPerOne
    rw [hwhole, Nat.add_zero, Nat.mul_comm] at hdiv
    rw [← hdiv] at hlow hhigh
    rw [← Nat.succ_mul] at hhigh
    have hlt := Nat.lt_of_mul_lt_mul_right hlow
    have hgt := Nat.lt_of_mul_lt_mul_right hhigh
    have heq : n = magnitude c / unitsPerOne := by omega
    exact ⟨c, by rw [heq, hdiv]⟩
  · have hbelow : n * unitsPerOne < (2 ^ 52 + 1) * unitsPerOne := by
      rw [Nat.succ_mul]
      exact hhigh.trans (Nat.add_lt_add_right (magnitude_lt_of_mod_ne_zero hwhole) _)
    have hn := Nat.lt_of_mul_lt_mul_right hbelow
    refine exists_magnitude_eq_mul_unitsPerOne ?_
    simp only [blockSize]
    omega

/-! ## 2.  Integers -/

/-- A count of units that is a magnitude is made the number of it. -/
theorem ofUnits_magnitude (code : Fin infinityCode) :
    ofUnits false (magnitude code : Nat) = finite false code := by
  unfold ofUnits
  by_cases hzero : code.val = 0
  · rw [hzero, magnitude_zero, if_pos Nat.cast_zero]
    exact congrArg (finite false) (Fin.ext hzero.symm)
  · have hne : ((magnitude code : Nat) : Int) ≠ 0 := by
      rw [Nat.cast_ne_zero, ← magnitude_zero]
      exact fun heq => hzero (magnitude_inj.1 heq)
    have h := ofUnitQuotient_magnitude_mul false code Nat.one_pos
    rw [Nat.mul_one] at h
    rw [if_neg hne, Int.natAbs_natCast, decide_eq_false (not_lt.2 (Int.natCast_nonneg _)), h]

/-- An integer that is a magnitude is made the number of it, with the sign of the integer. -/
theorem ofInt_eq_finite {n : Int} {code : Fin infinityCode}
    (h : magnitude code = n.natAbs * unitsPerOne) :
    ofInt n = finite (decide (n < 0)) code := by
  have hvalue : (n.natAbs : ℚ) = (magnitude code : ℚ) / unitsPerOne := by
    rw [h, Nat.cast_mul, mul_div_assoc, div_self (ne_of_gt unitsPerOne_rat_pos), mul_one]
  rw [ofInt_eq_ofRat, hvalue, ofRat_magnitude]

theorem isNegative_ofInt (n : Int) : (ofInt n).isNegative = decide (n < 0) := by
  rw [ofInt_eq_ofRat, isNegative_ofRat]

/-- The sign of an integer put before its magnitude. -/
theorem signedRat_natAbs (n : Int) : signedRat (decide (n < 0)) n.natAbs = n := by
  rw [Nat.cast_natAbs]
  by_cases hneg : n < 0
  · rw [decide_eq_true hneg, signedRat_true, abs_of_neg hneg, Int.cast_neg, InvolutiveNeg.neg_neg]
  · rw [decide_eq_false hneg, signedRat_false, abs_of_nonneg (not_lt.1 hneg)]

/-- An integer is made the number that is nearest to it. -/
theorem isNearest_ofInt (n : Int) : IsNearest n (ofInt n) := by
  have h := isNearest_ofRat (decide (n < 0)) (r := n.natAbs) (Nat.cast_nonneg _)
  rwa [signedRat_natAbs, ← ofInt_eq_ofRat] at h

/-- The integers around the value of a number have a rank. -/
theorem exists_magnitude_eq_natAbs {x : Binary64} {v : ℚ} (hx : x.toRat? = some v) {n : Int}
    (hnear : |(n : ℚ) - v| < 1) :
    ∃ code : Fin infinityCode, magnitude code = n.natAbs * unitsPerOne := by
  obtain ⟨negative, c, -, rfl⟩ := exists_of_toRat? hx
  have hunits := unitsPerOne_rat_pos
  have habs : |(n.natAbs : ℚ) - (magnitude c : ℚ) / unitsPerOne| < 1 := by
    rw [← signedRat_natAbs n] at hnear
    exact (abs_sub_le_signedRat (Nat.cast_nonneg _) (magnitude_div_nonneg c) _ _).trans_lt hnear
  obtain ⟨hlow, hhigh⟩ := abs_lt.1 habs
  refine exists_magnitude_eq_near c ?_ ?_
  · have h : (magnitude c : ℚ) / unitsPerOne < n.natAbs + 1 := by linarith only [hlow]
    rw [div_lt_iff₀ hunits] at h
    exact_mod_cast h
  · have h : (n.natAbs : ℚ) - 1 < (magnitude c : ℚ) / unitsPerOne := by linarith only [hhigh]
    rw [lt_div_iff₀ hunits, sub_mul, one_mul, sub_lt_iff_lt_add] at h
    exact_mod_cast h

/-- **An integer around the value of a number** is made the number that has it as its value. -/
theorem toRat?_ofInt {x : Binary64} {v : ℚ} (hx : x.toRat? = some v) {n : Int}
    (hnear : |(n : ℚ) - v| < 1) : (ofInt n).toRat? = some (n : ℚ) := by
  obtain ⟨code, hcode⟩ := exists_magnitude_eq_natAbs hx hnear
  have hvalue : (magnitude code : ℚ) / unitsPerOne = n.natAbs := by
    rw [hcode, Nat.cast_mul, mul_div_assoc, div_self (ne_of_gt unitsPerOne_rat_pos), mul_one]
  rw [ofInt_eq_finite hcode, toRat?_finite, hvalue, signedRat_natAbs]

/-! ## 3.  Numbers told by their values -/

/-- Numbers of one sign and one value are the same. -/
theorem eq_of_toRat?_eq {x y : Binary64} {v : ℚ} (hx : x.toRat? = some v) (hy : y.toRat? = some v)
    (hsign : x.isNegative = y.isNegative) : x = y := by
  obtain ⟨negative, c, rfl, rfl⟩ := exists_of_toRat? hx
  obtain ⟨negative', d, rfl, heq⟩ := exists_of_toRat? hy
  obtain rfl : negative = negative' := hsign
  rw [Fin.ext (code_eq_of_signedRat_eq heq)]

/-- A value does not contradict the sign that is stored. -/
theorem hasSign_of_toRat? {x : Binary64} {v : ℚ} (hx : x.toRat? = some v) :
    HasSign v x.isNegative := by
  obtain ⟨negative, c, rfl, rfl⟩ := exists_of_toRat? hx
  exact hasSign_signedRat (magnitude_div_nonneg c) negative

/-- Only zeros have the value zero. -/
theorem isZero_of_toRat? {x : Binary64} {v : ℚ} (hx : x.toRat? = some v) :
    x.isZero = decide (v = 0) := by
  obtain ⟨negative, c, rfl, rfl⟩ := exists_of_toRat? hx
  have hiff : c.val = 0 ↔ signedRat negative ((magnitude c : ℚ) / unitsPerOne) = 0 := by
    rw [← abs_eq_zero, abs_signedRat, abs_of_nonneg (magnitude_div_nonneg c), div_eq_zero_iff,
      or_iff_left (ne_of_gt unitsPerOne_rat_pos), Nat.cast_eq_zero]
    exact ⟨fun h => h ▸ magnitude_zero, fun h => magnitude_inj.1 (h.trans magnitude_zero.symm)⟩
  show (c.val == 0) = _
  rw [beq_eq_decide, decide_eq_decide]
  exact hiff

/-- **Comparing two finite numbers** compares their values. -/
theorem le_eq_decide {x y : Binary64} {v w : ℚ} (hx : x.toRat? = some v) (hy : y.toRat? = some w) :
    x.le y = decide (v ≤ w) := by
  cases x with
  | finite s a =>
    cases y with
    | finite t b =>
      obtain rfl := Option.some.inj hx
      obtain rfl := Option.some.inj hy
      show decide (signed s (magnitude a) ≤ signed t (magnitude b)) = _
      rw [decide_eq_decide, div_le_div_iff_of_pos_right unitsPerOne_rat_pos, Int.cast_le]
    | infinite t => cases hy
    | nan => cases hy
  | infinite s => cases hx
  | nan => cases hx

end Binary64

/-! ## 4.  Fractions cut off -/

/-- A rational without its fraction. -/
def truncated (r : ℚ) : ℤ := if 0 ≤ r then ⌊r⌋ else ⌈r⌉

theorem truncated_neg (r : ℚ) : truncated (-r) = -truncated r := by
  unfold truncated
  rcases lt_trichotomy r 0 with hneg | rfl | hpos
  · rw [if_pos (by linarith only [hneg]), if_neg (not_le.2 hneg), Int.floor_neg]
  · simp
  · rw [if_neg (by linarith only [hpos]), if_pos hpos.le, Int.ceil_neg]

/-- Cutting off a fraction goes towards zero, whatever the sign. -/
theorem truncated_signedRat (negative : Bool) {r : ℚ} (hr : 0 ≤ r) :
    truncated (Binary64.signedRat negative r) = if negative then -⌊r⌋ else ⌊r⌋ := by
  have hfloor : truncated r = ⌊r⌋ := if_pos hr
  cases negative with
  | false => exact hfloor
  | true =>
    rw [Binary64.signedRat_true, truncated_neg, hfloor]
    rfl

/-- A quotient of natural numbers without its fraction is their integer quotient. -/
theorem truncated_signedRat_div (negative : Bool) (p q : Nat) :
    truncated (Binary64.signedRat negative ((p : ℚ) / q)) = Binary64.signed negative (p / q) := by
  rw [truncated_signedRat negative (div_nonneg (Nat.cast_nonneg _) (Nat.cast_nonneg _)),
    Rat.floor_natCast_div_natCast]
  cases negative with
  | false => rfl
  | true => rfl

/-- Without its fraction a rational does not go beyond an integer. -/
theorem truncated_mono {r s : ℚ} (h : r ≤ s) : truncated r ≤ truncated s := by
  unfold truncated
  split
  case isTrue hr =>
    rw [if_pos (hr.trans h)]
    exact Int.floor_le_floor h
  case isFalse hr =>
    split
    case isTrue hs =>
      exact (Int.ceil_le.2 (by exact_mod_cast (not_le.1 hr).le)).trans (Int.floor_nonneg.2 hs)
    case isFalse => exact Int.ceil_le_ceil h

/-- Cutting off a fraction leads not up to an integer above zero. -/
theorem truncated_lt {r : ℚ} {n : ℤ} (h : r < n) (hn : 0 < n) : truncated r < n := by
  unfold truncated
  split
  case isTrue => exact Int.floor_lt.2 h
  case isFalse hr =>
    have hle : ⌈r⌉ ≤ 0 := Int.ceil_le.2 (by exact_mod_cast (not_le.1 hr).le)
    exact hle.trans_lt hn

@[simp] theorem truncated_intCast (n : Int) : truncated (n : ℚ) = n := by
  unfold truncated
  split
  · exact Int.floor_intCast n
  · exact Int.ceil_intCast n

end LineCalculator
