import Mathlib.Algebra.Order.Ring.Nat
import Mathlib.Order.Monotone.Basic
import Mathlib.Tactic.Ring
import LineCalculator.Binary64.Rounding

/-!
# The line of magnitudes

The ranks of the finite magnitudes go on for ever if the last one is forgotten, and the
magnitudes grow with them.  This module follows that line: how far apart neighbours on it are,
which magnitude a significand and a power of two make, and that rounding a quotient yields the
rank on it that is nearest (`gap_roundedCode_le`), the even one of two that are
(`even_of_gap_eq`).

## A rank taken apart

A rank is a number of blocks and a significand, and there are two ways to say so.  Where the
rank is counted from the beginning of its own block the significand lacks its leading digit.
Here it is counted from the beginning of the block before, so that the significand is whole: a
rank is `e * blockSize + m` with `m` below `2 * blockSize`, and its magnitude is `m * 2 ^ e`
(`magnitude_mul_add`).  Counted in this way the next rank has the next significand, also where
the one after that begins a new block, and no case is made for it.
-/

namespace LineCalculator

namespace Binary64

/-! ## Magnitudes -/

/-- How many binary places the unit of the format has.  The number has a name so that its powers
are not computed. -/
def unitPlaces : Nat := 1074

theorem unitsPerOne_eq : unitsPerOne = 2 ^ unitPlaces := by decide +kernel

theorem unitsPerOne_pos : 0 < unitsPerOne := by decide +kernel

/-- A block and a significand belong together: the significand has its leading digit, unless
the block is the first. -/
structure IsSignificand (e m : Nat) : Prop where
  leading : e = 0 ∨ blockSize ≤ m
  bound : m ≤ 2 * blockSize

/-- The magnitude of a block and a significand, also of the one that carries to the next
block. -/
theorem magnitude_mul_add {e m : Nat} (h : IsSignificand e m) :
    magnitude (e * blockSize + m) = m * 2 ^ e := by
  obtain ⟨hleading, hbound⟩ := h
  unfold magnitude
  by_cases hfirst : e * blockSize + m < blockSize
  · -- no block has been left, so the significand counts units
    have he : e = 0 := by
      simp only [blockSize] at hleading hfirst
      omega
    subst he
    rw [if_pos hfirst]
    simp
  · rw [if_neg hfirst, Nat.pow_eq]
    by_cases hcarry : m = 2 * blockSize
    · have hdiv : (e * blockSize + m) / blockSize = e + 2 := by
        simp only [blockSize] at hcarry ⊢
        omega
      have hmod : (e * blockSize + m) % blockSize = 0 := by
        simp only [blockSize] at hcarry ⊢
        omega
      rw [hdiv, hmod, hcarry, show e + 2 - 1 = e + 1 from rfl, pow_succ]
      ring
    · have hdiv : (e * blockSize + m) / blockSize = e + 1 := by
        simp only [blockSize] at hleading hbound hfirst hcarry ⊢
        omega
      have hmod : blockSize + (e * blockSize + m) % blockSize = m := by
        simp only [blockSize] at hleading hbound hfirst hcarry ⊢
        omega
      rw [hdiv, hmod, show e + 1 - 1 = e from rfl]

/-- Every rank is one of a block and a significand that does not carry. -/
theorem exists_significand (code : Nat) :
    ∃ e m, code = e * blockSize + m ∧ IsSignificand e m ∧ m < 2 * blockSize := by
  refine ⟨code / blockSize - 1, code - (code / blockSize - 1) * blockSize, ?_, ⟨?_, ?_⟩, ?_⟩ <;>
    simp only [blockSize] <;> omega

theorem IsSignificand.succ {e m : Nat} (h : IsSignificand e m) (hm : m < 2 * blockSize) :
    IsSignificand e (m + 1) :=
  ⟨h.leading.imp_right fun hle => Nat.le_succ_of_le hle, hm⟩

/-- **Magnitudes grow with their ranks.** -/
theorem magnitude_strictMono : StrictMono magnitude := by
  refine strictMono_nat_of_lt_succ fun code => ?_
  obtain ⟨e, m, rfl, h, hm⟩ := exists_significand code
  rw [Nat.add_assoc, magnitude_mul_add h, magnitude_mul_add (h.succ hm)]
  exact Nat.mul_lt_mul_of_pos_right (Nat.lt_succ_self m) (Nat.two_pow_pos e)

theorem magnitude_inj {c d : Nat} : magnitude c = magnitude d ↔ c = d :=
  magnitude_strictMono.injective.eq_iff

/-- A number with a fraction is below `2 ^ 52`. -/
theorem magnitude_lt_of_mod_ne_zero {code : Nat} (h : magnitude code % unitsPerOne ≠ 0) :
    magnitude code < 2 ^ 52 * unitsPerOne := by
  obtain ⟨e, m, rfl, hsignificand, hm⟩ := exists_significand code
  rw [magnitude_mul_add hsignificand, unitsPerOne_eq] at h ⊢
  have he : e < unitPlaces := by
    by_contra hle
    exact h (Nat.mod_eq_zero_of_dvd
      (Nat.dvd_mul_left_of_dvd (Nat.pow_dvd_pow 2 (Nat.le_of_not_lt hle)) m))
  calc m * 2 ^ e < 2 * blockSize * 2 ^ e := Nat.mul_lt_mul_of_pos_right hm (Nat.two_pow_pos e)
    _ = 2 ^ 52 * 2 ^ (e + 1) := by
      rw [show blockSize = 2 ^ 52 by decide, pow_succ]
      ring
    _ ≤ 2 ^ 52 * 2 ^ unitPlaces := Nat.mul_le_mul_left _ (Nat.pow_le_pow_right (by decide) he)

end Binary64

/-! ## The nearest integer -/

/-- A quotient is rounded down or up by what is left of the division, and to the even integer if
that is a half. -/
theorem nearestEven_spec (p q : Nat) :
    (nearestEven p q = p / q ∧ 2 * (p % q) ≤ q ∨
      nearestEven p q = p / q + 1 ∧ q ≤ 2 * (p % q)) ∧
    (2 * (p % q) = q → nearestEven p q % 2 = 0) := by
  unfold nearestEven
  dsimp only
  split
  · omega
  · split <;> omega

theorem nearestEven_mul_mul (p q : Nat) {k : Nat} (hk : 0 < k) :
    nearestEven (p * k) (q * k) = nearestEven p q := by
  have hlt : ∀ a b : Nat, a * k < b * k ↔ a < b := fun a b => Nat.mul_lt_mul_right hk
  unfold nearestEven
  dsimp only
  rw [Nat.mul_div_mul_right p q hk, Nat.mul_mod_mul_right, ← Nat.mul_assoc]
  simp only [hlt]

namespace Binary64

/-! ## The nearest rank -/

/-- How far the magnitude of a rank is from a quotient, counted in units over the divisor. -/
def gap (p q code : Nat) : Nat := ((p : Int) - (magnitude code * q : Nat)).natAbs

/-- The integer part of a quotient, in the steps of its block, is a significand that does not
carry. -/
theorem isSignificand_whole (p q : Nat) :
    IsSignificand (excessDigits (p / q)) (p / (q * 2 ^ excessDigits (p / q))) ∧
      p / (q * 2 ^ excessDigits (p / q)) < 2 * blockSize := by
  have hblock : blockSize = 2 ^ 52 := by decide
  rw [← Nat.div_div_eq_div_mul]
  generalize p / q = whole
  have hlt : whole / 2 ^ excessDigits whole < 2 * blockSize := by
    rw [Nat.div_lt_iff_lt_mul (Nat.two_pow_pos _), hblock, ← pow_succ', ← pow_add]
    refine Nat.lt_of_lt_of_le Nat.lt_log2_self (Nat.pow_le_pow_right (by decide) ?_)
    unfold excessDigits
    omega
  refine ⟨⟨?_, Nat.le_of_lt hlt⟩, hlt⟩
  by_cases hfew : whole.log2 ≤ 52
  · exact Or.inl (Nat.sub_eq_zero_of_le hfew)
  · right
    have hne : whole ≠ 0 := by
      rintro rfl
      exact hfew (by decide)
    rw [Nat.le_div_iff_mul_le (Nat.two_pow_pos _), hblock, ← pow_add, excessDigits,
      Nat.add_sub_cancel' (Nat.le_of_not_le hfew)]
    exact Nat.log2_self_le hne

/-- **Rounding a quotient** goes to one of two neighbouring ranks whose magnitudes enclose it,
not to the one that is farther, and to the even one of two that are as far. -/
theorem roundedCode_encloses {p q : Nat} (hq : 0 < q) : ∃ low,
    magnitude low * q ≤ p ∧ p < magnitude (low + 1) * q ∧
    (roundedCode p q = low ∧ gap p q low ≤ gap p q (low + 1) ∨
      roundedCode p q = low + 1 ∧ gap p q (low + 1) ≤ gap p q low) ∧
    (gap p q low = gap p q (low + 1) → roundedCode p q % 2 = 0) := by
  obtain ⟨hwhole, hbound⟩ := isSignificand_whole p q
  have hspec := nearestEven_spec p (q * 2 ^ excessDigits (p / q))
  unfold roundedCode
  dsimp only
  rw [Nat.pow_eq]
  generalize excessDigits (p / q) = e at hwhole hbound hspec ⊢
  have hdiv := Nat.div_add_mod p (q * 2 ^ e)
  have hmod := Nat.mod_lt p (Nat.mul_pos hq (Nat.two_pow_pos e))
  generalize p / (q * 2 ^ e) = whole at hwhole hbound hspec hdiv
  generalize p % (q * 2 ^ e) = rest at hspec hdiv hmod
  -- both enclosing magnitudes are whole numbers of steps
  have hlow : magnitude (e * blockSize + whole) * q = q * 2 ^ e * whole := by
    rw [magnitude_mul_add hwhole]
    ring
  have hhigh : magnitude (e * blockSize + whole + 1) * q = q * 2 ^ e * whole + q * 2 ^ e := by
    rw [Nat.add_assoc, magnitude_mul_add (hwhole.succ hbound)]
    ring
  refine ⟨e * blockSize + whole, ?_, ?_, ?_, ?_⟩
  · rw [hlow]
    omega
  · rw [hhigh]
    omega
  · unfold gap
    rw [hlow, hhigh]
    obtain ⟨⟨hnear, hrest⟩ | ⟨hnear, hrest⟩, -⟩ := hspec
    · rw [hnear]
      omega
    · rw [hnear]
      omega
  · unfold gap
    rw [hlow, hhigh]
    intro htie
    have heven := hspec.2 (by omega)
    simp only [blockSize]
    omega

theorem gap_lt_of_lt {p q code low : Nat} (hq : 0 < q) (hcode : code < low)
    (hlow : magnitude low * q ≤ p) : gap p q low < gap p q code := by
  have hlt := Nat.mul_lt_mul_of_pos_right (magnitude_strictMono hcode) hq
  unfold gap
  omega

theorem gap_lt_of_gt {p q code high : Nat} (hq : 0 < q) (hcode : high < code)
    (hhigh : p ≤ magnitude high * q) : gap p q high < gap p q code := by
  have hlt := Nat.mul_lt_mul_of_pos_right (magnitude_strictMono hcode) hq
  unfold gap
  omega

/-- A rank that is none of the two around a quotient is farther from it than one of them. -/
theorem gap_lt_of_ne {p q low code : Nat} (hq : 0 < q) (hlow : magnitude low * q ≤ p)
    (hhigh : p < magnitude (low + 1) * q) (hne : code ≠ low) (hne' : code ≠ low + 1) :
    gap p q low < gap p q code ∨ gap p q (low + 1) < gap p q code := by
  rcases Nat.lt_or_gt_of_ne hne with hlt | hgt
  · exact Or.inl (gap_lt_of_lt hq hlt hlow)
  · exact Or.inr (gap_lt_of_gt hq (by omega) (Nat.le_of_lt hhigh))

/-- **No rank is nearer** to a quotient than the one that it is rounded to. -/
theorem gap_roundedCode_le {p q : Nat} (hq : 0 < q) (code : Nat) :
    gap p q (roundedCode p q) ≤ gap p q code := by
  obtain ⟨low, hlow, hhigh, hchosen, -⟩ := roundedCode_encloses (p := p) hq
  have hbest : gap p q (roundedCode p q) ≤ gap p q low ∧
      gap p q (roundedCode p q) ≤ gap p q (low + 1) := by
    rcases hchosen with ⟨heq, hle⟩ | ⟨heq, hle⟩
    · rw [heq]
      exact ⟨Nat.le_refl _, hle⟩
    · rw [heq]
      exact ⟨hle, Nat.le_refl _⟩
  by_cases hne : code = low
  · exact hne ▸ hbest.1
  · by_cases hne' : code = low + 1
    · exact hne' ▸ hbest.2
    · rcases gap_lt_of_ne hq hlow hhigh hne hne' with hlt | hlt
      · exact Nat.le_trans hbest.1 (Nat.le_of_lt hlt)
      · exact Nat.le_trans hbest.2 (Nat.le_of_lt hlt)

/-- **Of two ranks as near** to a quotient it is rounded to the even one. -/
theorem even_of_gap_eq {p q : Nat} (hq : 0 < q) {code : Nat} (hne : code ≠ roundedCode p q)
    (h : gap p q code = gap p q (roundedCode p q)) : roundedCode p q % 2 = 0 := by
  obtain ⟨low, hlow, hhigh, hchosen, heven⟩ := roundedCode_encloses (p := p) hq
  have hbest := gap_roundedCode_le (p := p) hq
  -- a rank as near as the nearest is one of the two around the quotient, and so is the nearest
  have hcode : code = low ∨ code = low + 1 := by
    by_contra hneither
    obtain ⟨hnelow, hnehigh⟩ := not_or.1 hneither
    rcases gap_lt_of_ne hq hlow hhigh hnelow hnehigh with hlt | hlt
    · exact absurd (hbest low) (by omega)
    · exact absurd (hbest (low + 1)) (by omega)
  refine heven ?_
  rcases hchosen with ⟨heq, -⟩ | ⟨heq, -⟩
  · rw [heq] at h hne
    rw [← h, hcode.resolve_left hne]
  · rw [heq] at h hne
    rw [← h, hcode.resolve_right hne]

/-- A quotient that is a magnitude is rounded to the rank of it. -/
theorem roundedCode_magnitude_mul {q : Nat} (hq : 0 < q) (code : Nat) :
    roundedCode (magnitude code * q) q = code := by
  have hle := gap_roundedCode_le (p := magnitude code * q) hq code
  have hzero : magnitude code * q = magnitude (roundedCode (magnitude code * q) q) * q := by
    unfold gap at hle
    omega
  exact (magnitude_inj.1 (Nat.mul_right_cancel hq hzero)).symm

/-- Rounding does not depend on how a quotient is written. -/
theorem roundedCode_mul_mul (p q : Nat) {k : Nat} (hk : 0 < k) :
    roundedCode (p * k) (q * k) = roundedCode p q := by
  have hdiv : p * k / (q * k) = p / q := Nat.mul_div_mul_right p q hk
  unfold roundedCode
  dsimp only
  rw [hdiv, Nat.mul_right_comm q k, nearestEven_mul_mul _ _ hk]

/-- A quotient is rounded to a finite rank if it is below the mean of the last finite magnitude
and the next one. -/
theorem roundedCode_lt_infinityCode_iff {p q : Nat} (hq : 0 < q) :
    roundedCode p q < infinityCode ↔
      2 * p < (magnitude (infinityCode - 1) + magnitude infinityCode) * q := by
  have hlast := gap_roundedCode_le (p := p) hq (infinityCode - 1)
  have hnext := gap_roundedCode_le (p := p) hq infinityCode
  have htie : infinityCode ≠ roundedCode p q → gap p q infinityCode = gap p q (roundedCode p q) →
      roundedCode p q % 2 = 0 := even_of_gap_eq hq
  have hmono : ∀ {c d : Nat}, c ≤ d → magnitude c * q ≤ magnitude d * q := fun hle =>
    Nat.mul_le_mul_right q (magnitude_strictMono.monotone hle)
  have hpos : magnitude (infinityCode - 1) * q < magnitude infinityCode * q :=
    Nat.mul_lt_mul_of_pos_right (magnitude_strictMono (by decide)) hq
  rw [Nat.add_mul]
  generalize roundedCode p q = code at hlast hnext htie ⊢
  unfold gap at hlast hnext htie
  constructor
  · intro hlt
    have hle := hmono (Nat.le_sub_one_of_lt hlt)
    by_contra hge
    -- then both are as far, and the last finite rank is odd
    have hcode : magnitude code * q = magnitude (infinityCode - 1) * q := by omega
    have hlastCode := magnitude_inj.1 (Nat.mul_right_cancel hq hcode)
    have heven := htie (by omega) (by omega)
    rw [hlastCode] at heven
    exact absurd heven (by decide)
  · intro hlt
    by_contra hge
    have hle := hmono (Nat.le_of_not_lt hge)
    omega

end Binary64

end LineCalculator
