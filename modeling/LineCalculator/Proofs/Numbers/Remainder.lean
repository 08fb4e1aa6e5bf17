import LineCalculator.Evaluation.Operation
import LineCalculator.Proofs.Numbers.Exactness

/-!
# The remainder is exact

The remainder of two finite numbers is the rational that is left of the first after taking away
the second as often as the truncated quotient says.  Nothing is rounded, whatever the exponents
are: what is left of one magnitude after another is a magnitude again
(`exists_magnitude_eq_mod`), although the quotient may have hundreds of digits and be far from
any number.

## The one remainder

Four conditions describe the remainder without the quotient (`IsRemainder`): it differs from the
dividend by a whole multiple of the divisor, it is smaller than the divisor, it has the sign of
the dividend, and it is the value of a number.  Two numbers that meet them are the same
(`IsRemainder.unique`), the two zeros being told apart by the sign.
-/

namespace LineCalculator

namespace Binary64

/-! ## Products and quotients of rationals with signs -/

theorem signedRat_sub (negative : Bool) (a b : ℚ) :
    signedRat negative a - signedRat negative b = signedRat negative (a - b) := by
  cases negative with
  | false => rfl
  | true => exact neg_sub_neg a b |>.trans (neg_sub a b).symm

theorem signedRat_mul (s t : Bool) (a b : ℚ) :
    signedRat s a * signedRat t b = signedRat (s != t) (a * b) := by
  cases s <;> cases t <;> simp [signedRat]

theorem signedRat_div (s t : Bool) (a b : ℚ) :
    signedRat s a / signedRat t b = signedRat (s != t) (a / b) := by
  cases s <;> cases t <;> simp [signedRat, neg_div, div_neg]

theorem cast_signed (negative : Bool) (n : Nat) :
    ((signed negative n : Int) : ℚ) = signedRat negative n := by
  cases negative with
  | false => rfl
  | true => exact Int.cast_neg (n : Int)

/-! ## What a remainder is -/

/-- A number is what is left of `x`, which has the value `a`, after taking away `b`. -/
structure IsRemainder (x : Binary64) (a b : ℚ) (r : Binary64) (v : ℚ) : Prop where
  value : r.toRat? = some v
  multiple : ∃ k : ℤ, a - v = b * k
  smaller : |v| < |b|
  sign : r.isNegative = x.isNegative

/-- Rationals of one sign that are smaller than a third are less far apart than it is large. -/
theorem abs_sub_lt_of_hasSign {v w b : ℚ} {negative : Bool} (hv : HasSign v negative)
    (hw : HasSign w negative) (hvb : |v| < |b|) (hwb : |w| < |b|) : |v - w| < |b| := by
  have hlow := abs_lt.1 hvb
  have hhigh := abs_lt.1 hwb
  cases negative with
  | false =>
    have hv' : 0 ≤ v := hv
    have hw' : 0 ≤ w := hw
    exact abs_lt.2 ⟨by linarith, by linarith⟩
  | true =>
    have hv' : v ≤ 0 := hv
    have hw' : w ≤ 0 := hw
    exact abs_lt.2 ⟨by linarith, by linarith⟩

/-- **There is one remainder at most.** -/
theorem IsRemainder.unique {x r r' : Binary64} {a b v v' : ℚ} (h : IsRemainder x a b r v)
    (h' : IsRemainder x a b r' v') : r = r' := by
  obtain ⟨k, hk⟩ := h.multiple
  obtain ⟨k', hk'⟩ := h'.multiple
  have hsign : r.isNegative = r'.isNegative := h.sign.trans h'.sign.symm
  have hnear : |v - v'| < |b| :=
    abs_sub_lt_of_hasSign (hasSign_of_toRat? h.value) (hsign ▸ hasSign_of_toRat? h'.value)
      h.smaller h'.smaller
  -- the two differ by a whole multiple of the divisor, which can only be none
  have hdiff : v - v' = b * ((k' - k : ℤ) : ℚ) := by
    push_cast
    linarith only [hk, hk']
  have hpos : 0 < |b| := (abs_nonneg _).trans_lt hnear
  rw [hdiff, abs_mul, mul_lt_iff_lt_one_right hpos, ← Int.cast_abs, ← Int.cast_one,
    Int.cast_lt, Int.abs_lt_one_iff] at hnear
  have hvalue : v = v' := by
    rw [hnear, Int.cast_zero, mul_zero] at hdiff
    exact sub_eq_zero.1 hdiff
  exact eq_of_toRat?_eq h.value (hvalue ▸ h'.value) hsign

/-! ## What the operator yields -/

/-- The remainder of two finite numbers is the number that has the remainder of the magnitudes,
which is one. -/
theorem remainder?_finite (s t : Bool) (c d : Fin infinityCode) (hd : d.val ≠ 0) :
    ∃ r : Fin infinityCode, magnitude r = magnitude c % magnitude d ∧
      remainder? (finite s c) (finite t d) = some (finite s r) := by
  have hpos : 0 < magnitude d := magnitude_strictMono (Nat.pos_of_ne_zero hd)
  obtain ⟨r, hr⟩ := exists_magnitude_eq_mod c hpos
  refine ⟨r, hr, ?_⟩
  have h := ofUnitQuotient_magnitude_mul s r Nat.one_pos
  rw [Nat.mul_one] at h
  show (if d.val = 0 then none
    else some (ofUnitQuotient s (magnitude c % magnitude d) 1)) = _
  rw [if_neg hd, ← hr, h]

/-- The remainder of the magnitudes is that of the rationals, for the truncated quotient. -/
theorem sub_mod_eq (s t : Bool) (p q : Nat) :
    signedRat s ((p : ℚ) / unitsPerOne) - signedRat s (((p % q : Nat) : ℚ) / unitsPerOne) =
      signedRat t ((q : ℚ) / unitsPerOne) *
        truncated (signedRat s ((p : ℚ) / unitsPerOne) / signedRat t ((q : ℚ) / unitsPerOne)) := by
  have hunits := ne_of_gt unitsPerOne_rat_pos
  have hdivmod : (p : ℚ) = q * (p / q : Nat) + (p % q : Nat) := by
    exact_mod_cast (Nat.div_add_mod p q).symm
  have hsign : (t != (s != t)) = s := by cases s <;> cases t <;> rfl
  rw [signedRat_div, div_div_div_cancel_right₀ hunits, truncated_signedRat_div, cast_signed,
    signedRat_mul, hsign, signedRat_sub, ← sub_div, div_mul_eq_mul_div]
  congr 2
  linarith only [hdivmod]

/-- Numbers are compared without their signs by their magnitudes. -/
theorem abs_signedRat_lt (s t : Bool) {c d : Fin infinityCode} (h : magnitude c < magnitude d) :
    |signedRat s ((magnitude c : ℚ) / unitsPerOne)| <
      |signedRat t ((magnitude d : ℚ) / unitsPerOne)| := by
  rw [abs_signedRat, abs_signedRat, abs_of_nonneg (magnitude_div_nonneg c),
    abs_of_nonneg (magnitude_div_nonneg d), div_lt_div_iff_of_pos_right unitsPerOne_rat_pos]
  exact Nat.cast_lt.2 h

/-- **The remainder is exact.**  Of two finite numbers of which the second is not zero it is the
number whose value is left of that of the first after taking away that of the second as often as
the truncated quotient says; it is the only number with the sign of the first that is smaller
than the second and differs from the first by a whole multiple of the second.  Of a finite number
and an infinity it is the finite number. -/
theorem modulo_is_exact :
    (∀ (x y : Binary64) (a b : ℚ), x.toRat? = some a → y.toRat? = some b → b ≠ 0 →
      ∃ (r : Binary64) (v : ℚ), BinaryOp.modulo.apply x y = .ok r ∧ r.toRat? = some v ∧
        a - v = b * truncated (a / b) ∧ |v| < |b| ∧ r.isNegative = x.isNegative ∧
        ∀ (r' : Binary64) (v' : ℚ), IsRemainder x a b r' v' → r' = r) ∧
    (∀ (x : Binary64) (a : ℚ) (negative : Bool), x.toRat? = some a →
      BinaryOp.modulo.apply x (.infinite negative) = .ok x) := by
  constructor
  · intro x y a b hx hy hb
    obtain ⟨s, c, rfl, rfl⟩ := exists_of_toRat? hx
    have hzero := isZero_of_toRat? hy
    rw [decide_eq_false hb] at hzero
    obtain ⟨t, d, rfl, rfl⟩ := exists_of_toRat? hy
    have hd : d.val ≠ 0 := by simpa [isZero] using hzero
    have hpos : 0 < magnitude d := magnitude_strictMono (Nat.pos_of_ne_zero hd)
    obtain ⟨r, hr, happly⟩ := remainder?_finite s t c d hd
    have hmultiple := sub_mod_eq s t (magnitude c) (magnitude d)
    rw [← hr] at hmultiple
    have hsmaller : |signedRat s ((magnitude r : ℚ) / unitsPerOne)| <
        |signedRat t ((magnitude d : ℚ) / unitsPerOne)| :=
      abs_signedRat_lt s t (hr ▸ Nat.mod_lt _ hpos)
    have hremainder : IsRemainder (finite s c) _ _ (finite s r) _ :=
      ⟨toRat?_finite s r, ⟨_, hmultiple⟩, hsmaller, rfl⟩
    refine ⟨finite s r, _, ?_, toRat?_finite s r, hmultiple, hsmaller, rfl,
      fun r' v' h' => h'.unique hremainder⟩
    unfold BinaryOp.apply
    dsimp only
    rw [hzero, happly]
    rfl
  · intro x a negative hx
    obtain ⟨s, c, rfl, -⟩ := exists_of_toRat? hx
    rfl

/-- What is left of the greatest number after taking away three times the least one below zero,
whose exponents are as far apart as any. -/
theorem modulo_greatest_least :
    ∃ a b : ℚ, (finite false ⟨0x7fefffffffffffff, by decide⟩).toRat? = some a ∧
      (finite true ⟨3, by decide⟩).toRat? = some b ∧ b ≠ 0 ∧
      (∃ (r : Binary64) (v : ℚ),
        BinaryOp.modulo.apply (finite false ⟨0x7fefffffffffffff, by decide⟩)
          (finite true ⟨3, by decide⟩) = .ok r ∧
        r.toRat? = some v ∧ a - v = b * truncated (a / b) ∧ |v| < |b| ∧
        r.isNegative = false) ∧
      BinaryOp.modulo.apply (finite true ⟨3, by decide⟩) (.infinite false) =
        .ok (finite true ⟨3, by decide⟩) := by
  have hb : signedRat true ((magnitude 3 : ℚ) / unitsPerOne) ≠ 0 :=
    neg_ne_zero.2 (div_ne_zero (Nat.cast_ne_zero.2 (by decide)) (ne_of_gt unitsPerOne_rat_pos))
  obtain ⟨r, v, hr, hv, hmultiple, hsmaller, hsign, -⟩ :=
    modulo_is_exact.1 _ _ _ _ (toRat?_finite false ⟨0x7fefffffffffffff, by decide⟩)
      (toRat?_finite true ⟨3, by decide⟩) hb
  exact ⟨_, _, toRat?_finite _ _, toRat?_finite _ _, hb,
    ⟨r, v, hr, hv, hmultiple, hsmaller, hsign⟩,
    modulo_is_exact.2 _ _ false (toRat?_finite true ⟨3, by decide⟩)⟩

end Binary64

end LineCalculator
