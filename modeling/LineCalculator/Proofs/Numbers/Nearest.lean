import Mathlib.Algebra.Order.Field.Basic
import Mathlib.Algebra.Order.Ring.Rat
import Mathlib.Data.Rat.Cast.Order
import Mathlib.Tactic.FieldSimp
import Mathlib.Tactic.Linarith
import Mathlib.Tactic.NormNum
import LineCalculator.Proofs.Numbers.Magnitude

/-!
# The number nearest to a rational

What it means for a number to be the one that a rational is rounded to (`IsNearest`): it has
the sign of the rational; if it is finite no finite number denotes a rational that is nearer,
and where another one is as near its significand is even; and it is infinite exactly if the
rational is at least as great as the mean of the greatest finite number and the power of two
that would come next.  None of this speaks of blocks or of quotients.

There is one such number of each sign at most (`IsNearest.unique`).  Rounding a quotient once
yields it (`isNearest_ofUnitQuotient`), however the quotient is written, so rounding is a
function of the rational (`ofRat`), and one that gives back every number (`ofRat_magnitude`).
-/

namespace LineCalculator

namespace Binary64

/-- The rational that a finite number denotes. -/
def toRat? (x : Binary64) : Option ℚ := x.units?.map fun n => (n : ℚ) / unitsPerOne

/-- The least magnitude that no finite number is near enough to: the mean of the greatest finite
number and `2 ^ 1024`. -/
def overflow : ℚ := 2 ^ 1024 - 2 ^ 970

/-- A rational does not contradict a sign.  Zero has either. -/
def HasSign (r : ℚ) (negative : Bool) : Prop := if negative then r ≤ 0 else 0 ≤ r

/-- A number is the one that a rational is rounded to.  That the significand of a finite number
is even says that its rank is, as a block holds an even number of ranks. -/
inductive IsNearest (r : ℚ) : Binary64 → Prop
  | finite {negative : Bool} {code : Fin infinityCode} {v : ℚ}
      (value : (finite negative code).toRat? = some v) (sign : HasSign r negative)
      (inside : |r| < overflow)
      (nearest : ∀ (y : Binary64) (w : ℚ), y.toRat? = some w → |r - v| ≤ |r - w|)
      (even : ∀ (y : Binary64) (w : ℚ), y.toRat? = some w → w ≠ v → |r - w| = |r - v| →
        code.val % 2 = 0) : IsNearest r (finite negative code)
  | infinite {negative : Bool} (sign : HasSign r negative) (outside : overflow ≤ |r|) :
      IsNearest r (infinite negative)

/-! ## Signs -/

/-- A rational with a sign put before it. -/
def signedRat (negative : Bool) (r : ℚ) : ℚ := if negative then -r else r

theorem signedRat_true (r : ℚ) : signedRat true r = -r := rfl

theorem signedRat_false (r : ℚ) : signedRat false r = r := rfl

theorem abs_signedRat (negative : Bool) (r : ℚ) : |signedRat negative r| = |r| := by
  cases negative with
  | false => rfl
  | true => simp [signedRat_true]

theorem signedRat_not (negative : Bool) (r : ℚ) :
    signedRat (!negative) r = -signedRat negative r := by
  cases negative with
  | false => rfl
  | true => simp [signedRat_true, signedRat_false]

theorem hasSign_signedRat {r : ℚ} (hr : 0 ≤ r) (negative : Bool) :
    HasSign (signedRat negative r) negative := by
  cases negative with
  | false => exact hr
  | true => exact neg_nonpos.2 hr

/-- Rationals of one sign are as far apart as their magnitudes. -/
theorem abs_signedRat_sub (negative : Bool) (a b : ℚ) :
    |signedRat negative a - signedRat negative b| = |a - b| := by
  cases negative with
  | false => rfl
  | true =>
    rw [signedRat_true, signedRat_true, neg_sub_neg]
    exact abs_sub_comm b a

/-- Rationals of any signs are at least as far apart as their magnitudes. -/
theorem abs_sub_le_signedRat {a b : ℚ} (ha : 0 ≤ a) (hb : 0 ≤ b) (s t : Bool) :
    |a - b| ≤ |signedRat s a - signedRat t b| := by
  have h := abs_abs_sub_abs_le (signedRat s a) (signedRat t b)
  rwa [abs_signedRat, abs_signedRat, abs_of_nonneg ha, abs_of_nonneg hb] at h

/-! ## Ranks on the line of rationals -/

theorem unitsPerOne_rat_pos : (0 : ℚ) < unitsPerOne := Nat.cast_pos.2 unitsPerOne_pos

theorem magnitude_div_nonneg (code : Nat) : (0 : ℚ) ≤ (magnitude code : ℚ) / unitsPerOne :=
  div_nonneg (Nat.cast_nonneg _) (Nat.cast_nonneg _)

theorem toRat?_finite (negative : Bool) (code : Fin infinityCode) :
    (finite negative code).toRat? =
      some (signedRat negative ((magnitude code : ℚ) / unitsPerOne)) := by
  show some (((signed negative (magnitude code) : Int) : ℚ) / unitsPerOne) = _
  cases negative with
  | false => rfl
  | true =>
    have hcast : ((signed true (magnitude code) : Int) : ℚ) = -(magnitude code : ℚ) := by
      simp [signed]
    rw [hcast, neg_div, signedRat_true]

theorem exists_of_toRat? {x : Binary64} {r : ℚ} (h : x.toRat? = some r) :
    ∃ negative code, x = finite negative code ∧
      r = signedRat negative ((magnitude code : ℚ) / unitsPerOne) := by
  cases x with
  | finite negative code =>
    rw [toRat?_finite] at h
    exact ⟨negative, code, rfl, (Option.some.inj h).symm⟩
  | infinite negative => cases h
  | nan => cases h

/-- How far a quotient is from a rank. -/
theorem abs_sub_magnitude {p q : Nat} (hq : 0 < q) (code : Nat) :
    |(p : ℚ) / q / unitsPerOne - (magnitude code : ℚ) / unitsPerOne| =
      (gap p q code : ℚ) / (q * unitsPerOne) := by
  have hq' : (0 : ℚ) < q := Nat.cast_pos.2 hq
  have hunits := unitsPerOne_rat_pos
  have hgap : (gap p q code : ℚ) = |(p : ℚ) - magnitude code * q| := by
    unfold gap
    rw [Nat.cast_natAbs]
    push_cast
    rfl
  generalize (unitsPerOne : ℚ) = units at hunits ⊢
  have hsub : (p : ℚ) / q / units - (magnitude code : ℚ) / units =
      ((p : ℚ) - magnitude code * q) / (q * units) := by
    field_simp
  rw [hgap, hsub, abs_div, abs_of_pos (mul_pos hq' hunits)]

theorem abs_sub_magnitude_le_iff {p q : Nat} (hq : 0 < q) (c d : Nat) :
    |(p : ℚ) / q / unitsPerOne - (magnitude c : ℚ) / unitsPerOne| ≤
        |(p : ℚ) / q / unitsPerOne - (magnitude d : ℚ) / unitsPerOne| ↔
      gap p q c ≤ gap p q d := by
  have hpos : (0 : ℚ) < q * unitsPerOne := mul_pos (Nat.cast_pos.2 hq) unitsPerOne_rat_pos
  rw [abs_sub_magnitude hq, abs_sub_magnitude hq, div_le_div_iff_of_pos_right hpos, Nat.cast_le]

/-- The mean of the greatest finite magnitude and the next one, in rationals. -/
theorem lt_overflow_iff {p q : Nat} (hq : 0 < q) :
    (p : ℚ) / q / unitsPerOne < overflow ↔ roundedCode p q < infinityCode := by
  have hq' : (0 : ℚ) < q := Nat.cast_pos.2 hq
  have hunits := unitsPerOne_rat_pos
  have hmean : magnitude (infinityCode - 1) + magnitude infinityCode =
      2 * ((2 ^ 1024 - 2 ^ 970) * unitsPerOne) := by decide +kernel
  have hoverflow : overflow = ((2 ^ 1024 - 2 ^ 970 : Nat) : ℚ) := by
    unfold overflow
    rw [Nat.cast_sub (pow_le_pow_right₀ one_le_two (by decide)), Nat.cast_pow, Nat.cast_pow,
      Nat.cast_ofNat]
  rw [roundedCode_lt_infinityCode_iff hq, hmean, hoverflow]
  generalize (2 ^ 1024 - 2 ^ 970 : Nat) = bound
  rw [div_lt_iff₀ hunits, div_lt_iff₀ hq']
  have hcast : (p : ℚ) < bound * unitsPerOne * q ↔ p < bound * unitsPerOne * q := by
    rw [← Nat.cast_mul, ← Nat.cast_mul, Nat.cast_lt]
  rw [hcast, Nat.mul_assoc 2]
  omega

/-! ## There is one nearest number -/

/-- Finite numbers of one sign that denote the same rational are the same. -/
theorem code_eq_of_signedRat_eq {negative : Bool} {c d : Nat}
    (h : signedRat negative ((magnitude c : ℚ) / unitsPerOne) =
      signedRat negative ((magnitude d : ℚ) / unitsPerOne)) : c = d := by
  have habs := congrArg (fun r : ℚ => |r|) h
  rw [abs_signedRat, abs_signedRat, abs_of_nonneg (magnitude_div_nonneg c),
    abs_of_nonneg (magnitude_div_nonneg d),
    div_left_inj' (ne_of_gt unitsPerOne_rat_pos), Nat.cast_inj] at habs
  exact magnitude_inj.1 habs

/-- Between two ranks that are even there is another, and what is as far from both is nearer to
that one. -/
theorem exists_nearer {negative : Bool} {c d : Fin infinityCode} {r : ℚ} (hlt : c.val < d.val)
    (hc : c.val % 2 = 0) (hd : d.val % 2 = 0)
    (hfar : |r - signedRat negative ((magnitude c : ℚ) / unitsPerOne)| =
      |r - signedRat negative ((magnitude d : ℚ) / unitsPerOne)|) :
    ∃ (y : Binary64) (w : ℚ), y.toRat? = some w ∧
      |r - w| < |r - signedRat negative ((magnitude c : ℚ) / unitsPerOne)| := by
  have hmid : c.val < c.val + 1 ∧ c.val + 1 < d.val := ⟨Nat.lt_succ_self _, by omega⟩
  refine ⟨finite negative ⟨c.val + 1, Nat.lt_trans hmid.2 d.isLt⟩, _, toRat?_finite _ _, ?_⟩
  have hgrow : ∀ {a b : Nat}, a < b →
      (magnitude a : ℚ) / unitsPerOne < (magnitude b : ℚ) / unitsPerOne := fun hab =>
    (div_lt_div_iff_of_pos_right unitsPerOne_rat_pos).2 (Nat.cast_lt.2 (magnitude_strictMono hab))
  have hlow := hgrow hmid.1
  have hhigh := hgrow hmid.2
  show |r - signedRat negative ((magnitude (c.val + 1) : ℚ) / unitsPerOne)| < _
  generalize (magnitude (c.val + 1) : ℚ) / unitsPerOne = w at hlow hhigh ⊢
  generalize (magnitude c : ℚ) / unitsPerOne = v at hfar hlow ⊢
  generalize (magnitude d : ℚ) / unitsPerOne = v' at hfar hhigh
  have hmean : 2 * r = signedRat negative v + signedRat negative v' := by
    rcases abs_eq_abs.1 hfar with heq | heq
    · cases negative with
      | false => rw [signedRat_false, signedRat_false] at heq; linarith
      | true => rw [signedRat_true, signedRat_true] at heq; linarith
    · linarith
  cases negative with
  | false =>
    rw [signedRat_false, signedRat_false] at hmean ⊢
    refine (abs_lt.2 ⟨?_, ?_⟩).trans_le (le_abs_self (r - v))
    · linarith
    · linarith
  | true =>
    rw [signedRat_true, signedRat_true] at hmean ⊢
    refine (abs_lt.2 ⟨?_, ?_⟩).trans_le (neg_le_abs (r - -v))
    · linarith
    · linarith

/-- **A rational is rounded to one number of each sign at most.** -/
theorem IsNearest.unique {r : ℚ} {x y : Binary64} (hx : IsNearest r x) (hy : IsNearest r y)
    (hsign : x.isNegative = y.isNegative) : x = y := by
  cases hx with
  | @finite negative c v hv _ hinside hnearest heven =>
    cases hy with
    | @finite negative' d v' hv' _ _ hnearest' heven' =>
      obtain rfl : negative = negative' := hsign
      have hfar : |r - v| = |r - v'| := le_antisymm (hnearest _ _ hv') (hnearest' _ _ hv)
      have hcode : v = signedRat negative ((magnitude c : ℚ) / unitsPerOne) :=
        Option.some.inj (hv.symm.trans (toRat?_finite negative c))
      have hcode' : v' = signedRat negative ((magnitude d : ℚ) / unitsPerOne) :=
        Option.some.inj (hv'.symm.trans (toRat?_finite negative d))
      by_cases heq : v' = v
      · rw [hcode, hcode'] at heq
        rw [Fin.ext (code_eq_of_signedRat_eq heq)]
      · -- both ranks are even then, and neither is the nearest
        have hc := heven _ _ hv' heq hfar.symm
        have hd := heven' _ _ hv (Ne.symm heq) hfar
        have hne : c ≠ d := by
          rintro rfl
          exact heq (hcode'.trans hcode.symm)
        rw [hcode, hcode'] at hfar
        rcases Nat.lt_or_gt_of_ne (Fin.val_ne_of_ne hne) with hlt | hgt
        · obtain ⟨z, w, hw, hnearer⟩ := exists_nearer hlt hc hd hfar
          exact absurd (hnearest z w hw) (not_le.2 (hcode ▸ hnearer))
        · obtain ⟨z, w, hw, hnearer⟩ := exists_nearer hgt hd hc hfar.symm
          exact absurd (hnearest' z w hw) (not_le.2 (hcode' ▸ hnearer))
    | infinite _ houtside => exact absurd hinside (not_lt.2 houtside)
  | infinite _ houtside =>
    cases hy with
    | finite _ _ hinside => exact absurd hinside (not_lt.2 houtside)
    | infinite => exact congrArg Binary64.infinite hsign

/-! ## Rounding -/

/-- Only zero is as far from a rational as from its opposite. -/
theorem eq_zero_of_abs_sub_eq_abs_sub_neg {a b : ℚ} (hne : -b ≠ b) (h : |a - -b| = |a - b|) :
    a = 0 := by
  rcases abs_eq_abs.1 h with heq | heq
  · exact absurd (by linarith) hne
  · linarith

/-- A quotient that is zero is rounded to zero. -/
theorem roundedCode_of_eq_zero {p q : Nat} (hq : 0 < q) (h : (p : ℚ) / q / unitsPerOne = 0) :
    roundedCode p q = 0 := by
  have hp : p = 0 := by
    rw [div_div, div_eq_zero_iff] at h
    exact Nat.cast_eq_zero.1
      (h.resolve_right (ne_of_gt (mul_pos (Nat.cast_pos.2 hq) unitsPerOne_rat_pos)))
  have hround := roundedCode_magnitude_mul hq 0
  rw [magnitude_zero, Nat.zero_mul] at hround
  rw [hp, hround]

/-- **Rounding a quotient once yields the nearest number.** -/
theorem isNearest_ofUnitQuotient (negative : Bool) {p q : Nat} (hq : 0 < q) :
    IsNearest (signedRat negative ((p : ℚ) / q / unitsPerOne)) (ofUnitQuotient negative p q) := by
  have hnonneg : (0 : ℚ) ≤ (p : ℚ) / q / unitsPerOne :=
    div_nonneg (div_nonneg (Nat.cast_nonneg _) (Nat.cast_nonneg _)) (Nat.cast_nonneg _)
  have habs : |signedRat negative ((p : ℚ) / q / unitsPerOne)| = (p : ℚ) / q / unitsPerOne := by
    rw [abs_signedRat, abs_of_nonneg hnonneg]
  unfold ofUnitQuotient
  by_cases hfinite : roundedCode p q < infinityCode
  · rw [dif_pos hfinite]
    refine .finite (toRat?_finite negative _) (hasSign_signedRat hnonneg negative) ?_ ?_ ?_
    · rw [habs]
      exact (lt_overflow_iff hq).2 hfinite
    · intro y w hw
      obtain ⟨t, code, rfl, rfl⟩ := exists_of_toRat? hw
      rw [abs_signedRat_sub]
      exact ((abs_sub_magnitude_le_iff hq _ _).2 (gap_roundedCode_le hq code)).trans
        (abs_sub_le_signedRat hnonneg (magnitude_div_nonneg code) negative t)
    · intro y w hw hne hfar
      obtain ⟨t, code, rfl, rfl⟩ := exists_of_toRat? hw
      show roundedCode p q % 2 = 0
      by_cases hcode : code.val = roundedCode p q
      · -- the same magnitude with the other sign is as far only from zero
        have hsign : t = !negative := by
          by_contra hsame
          exact hne (by rw [Bool.not_eq_not.1 hsame, hcode])
        rw [hsign, hcode, signedRat_not] at hfar hne
        have hzero := eq_zero_of_abs_sub_eq_abs_sub_neg hne hfar
        rw [← abs_eq_zero, habs] at hzero
        rw [roundedCode_of_eq_zero hq hzero]
      · rw [abs_signedRat_sub] at hfar
        have hle := (abs_sub_le_signedRat hnonneg (magnitude_div_nonneg code) negative t).trans
          (le_of_eq hfar)
        have hgap := (abs_sub_magnitude_le_iff hq _ _).1 hle
        exact even_of_gap_eq hq hcode (Nat.le_antisymm hgap (gap_roundedCode_le hq code))
  · rw [dif_neg hfinite]
    refine .infinite (hasSign_signedRat hnonneg negative) ?_
    rw [habs]
    exact not_lt.1 fun hlt => hfinite ((lt_overflow_iff hq).1 hlt)

/-- A rational that is a number is rounded to it. -/
theorem ofUnitQuotient_magnitude_mul (negative : Bool) (code : Fin infinityCode) {q : Nat}
    (hq : 0 < q) : ofUnitQuotient negative (magnitude code * q) q = finite negative code := by
  have hcode := roundedCode_magnitude_mul hq code.val
  have hlt : roundedCode (magnitude code * q) q < infinityCode := hcode.symm ▸ code.isLt
  unfold ofUnitQuotient
  rw [dif_pos hlt]
  exact congrArg (finite negative) (Fin.ext hcode)

/-- Rounding does not depend on how a quotient is written. -/
theorem ofUnitQuotient_eq {p q p' q' : Nat} (negative : Bool) (hq : 0 < q) (hq' : 0 < q')
    (h : p * q' = p' * q) : ofUnitQuotient negative p q = ofUnitQuotient negative p' q' := by
  have hcode : roundedCode p q = roundedCode p' q' := by
    rw [← roundedCode_mul_mul p q hq', h, Nat.mul_comm q q', roundedCode_mul_mul p' q' hq]
  unfold ofUnitQuotient
  simp only [hcode]

/-! ## Rationals -/

/-- The number of a sign that a magnitude is rounded to. -/
def ofRat (negative : Bool) (r : ℚ) : Binary64 :=
  ofUnitQuotient negative (r.num.natAbs * unitsPerOne) r.den

/-- **A magnitude is rounded to the nearest number.** -/
theorem isNearest_ofRat (negative : Bool) {r : ℚ} (hr : 0 ≤ r) :
    IsNearest (signedRat negative r) (ofRat negative r) := by
  have hnum : (r.num.natAbs : ℚ) = r.num := by
    rw [Nat.cast_natAbs, abs_of_nonneg (Rat.num_nonneg.2 hr)]
  have hvalue : ((r.num.natAbs * unitsPerOne : Nat) : ℚ) / r.den / unitsPerOne = r := by
    rw [Nat.cast_mul, mul_div_right_comm, mul_div_assoc, div_self (ne_of_gt unitsPerOne_rat_pos),
      mul_one, hnum, Rat.num_div_den]
  have h := isNearest_ofUnitQuotient negative (p := r.num.natAbs * unitsPerOne) r.den_pos
  rwa [hvalue] at h

/-- Whatever computes a quotient in units and rounds it once rounds the rational. -/
theorem ofUnitQuotient_mul_unitsPerOne (negative : Bool) (n : Nat) {q : Nat} (hq : 0 < q) :
    ofUnitQuotient negative (n * unitsPerOne) q = ofRat negative ((n : ℚ) / q) := by
  refine ofUnitQuotient_eq negative hq (Rat.den_pos _) ?_
  have hq' : (q : ℚ) ≠ 0 := Nat.cast_ne_zero.2 (Nat.ne_of_gt hq)
  have hnonneg : (0 : ℚ) ≤ (n : ℚ) / q := div_nonneg (Nat.cast_nonneg _) (Nat.cast_nonneg _)
  generalize hr : (n : ℚ) / q = r at hnonneg
  have hcross : n * r.den = r.num.natAbs * q := by
    have hnum : (r.num.natAbs : ℚ) = r.num := by
      rw [Nat.cast_natAbs, abs_of_nonneg (Rat.num_nonneg.2 hnonneg)]
    have hden : (r.den : ℚ) ≠ 0 := Nat.cast_ne_zero.2 r.den_ne_zero
    have hquot : (n : ℚ) / q = r.num / r.den := by rw [hr, Rat.num_div_den]
    have hcast : (n : ℚ) * r.den = r.num * q := (div_eq_div_iff hq' hden).1 hquot
    rw [← hnum] at hcast
    exact_mod_cast hcast
  rw [Nat.mul_right_comm, hcross, Nat.mul_right_comm]

/-- **A magnitude that is a number is rounded to it.** -/
theorem ofRat_magnitude (negative : Bool) (code : Fin infinityCode) :
    ofRat negative ((magnitude code : ℚ) / unitsPerOne) = finite negative code := by
  rw [← ofUnitQuotient_mul_unitsPerOne negative (magnitude code) unitsPerOne_pos]
  exact ofUnitQuotient_magnitude_mul negative code unitsPerOne_pos

theorem isNegative_ofRat (negative : Bool) (r : ℚ) : (ofRat negative r).isNegative = negative := by
  unfold ofRat ofUnitQuotient
  split <;> rfl

/-- An integer is made the number that it is rounded to, and zero the positive zero. -/
theorem ofInt_eq_ofRat (n : Int) : ofInt n = ofRat (decide (n < 0)) n.natAbs := by
  have hunits : (0 : Int) < unitsPerOne := Int.natCast_pos.2 unitsPerOne_pos
  have h := ofUnitQuotient_mul_unitsPerOne (decide (n < 0)) n.natAbs Nat.one_pos
  rw [Nat.cast_one, div_one] at h
  rw [← h]
  unfold ofInt ofUnits
  by_cases hzero : n = 0
  · subst hzero
    have hround := ofUnitQuotient_magnitude_mul false ⟨0, by decide⟩ Nat.one_pos
    rw [magnitude_zero, Nat.zero_mul] at hround
    rw [Int.zero_mul, if_pos rfl, Int.natAbs_zero, Nat.zero_mul]
    exact hround.symm
  · have hsign : n * (unitsPerOne : Int) < 0 ↔ n < 0 :=
      ⟨fun hneg => neg_of_mul_neg_left hneg hunits.le,
        fun hneg => mul_neg_of_neg_of_pos hneg hunits⟩
    rw [if_neg (mul_ne_zero hzero (ne_of_gt hunits)), decide_eq_decide.2 hsign, Int.natAbs_mul,
      Int.natAbs_natCast]

/-- A natural number is made the number that it is rounded to. -/
theorem ofNat_eq_ofRat (n : Nat) : ofNat n = ofRat false n := by
  have h := ofInt_eq_ofRat n
  rwa [decide_eq_false (not_lt.2 (Int.natCast_nonneg n)), Int.natAbs_natCast] at h

end Binary64

end LineCalculator
