import Mathlib.Algebra.Order.Round
import LineCalculator.Evaluation.Operation
import LineCalculator.Proofs.Numbers.Exactness

/-!
# Rounding to whole numbers is exact

Of a finite number `floor` yields the greatest integer that is not above it, `ceil` the least one
that is not below it, and `round` the nearest one with halves going away from zero.  None of the
integers is rounded to become a number, because each is less than one away from a number
(`toRat?_ofInt`).

## The subtraction in `round`

The first two divide the count of units.  The third works with numbers: it subtracts from the
magnitude the integer below it and compares what is left with a half.  That is right only
because the difference is not rounded (`sub_eq_of_add_eq`): it is what is left of the magnitude
after taking away one as often as possible, which is a magnitude.  An addition of a half in place
of the comparison would be rounded, and wrong just below one half and from `2 ^ 52` on.

## What follows

Each of the three is therefore a monotone function of values that leaves integers alone.
-/

namespace LineCalculator

/-! ## Integers nearest to a rational -/

/-- The integers that no other is nearer to a rational than: one, or two if the rational is
halfway between them. -/
def nearestIntegers (r : ℚ) : Set ℤ := {k | ∀ j : ℤ, |r - k| ≤ |r - j|}

/-- The greatest of the nearest integers. -/
theorem isGreatest_nearestIntegers (r : ℚ) : IsGreatest (nearestIntegers r) ⌊r + 1 / 2⌋ := by
  rw [← round_eq]
  refine ⟨fun j => round_le r j, fun k hk => ?_⟩
  by_contra hgt
  have hnext : ((round r : ℤ) : ℚ) + 1 ≤ k := by exact_mod_cast not_le.1 hgt
  have hbelow : r + 1 / 2 < round r + 1 := by
    rw [round_eq]
    exact Int.lt_floor_add_one _
  have hhalf := abs_sub_round r
  have hnear : |r - k| ≤ |r - round r| := hk (round r)
  have hfar := neg_le_abs (r - k)
  linarith only [hnext, hbelow, hhalf, hnear, hfar]

namespace Binary64

/-! ## Down and up -/

/-- Going down is going down with the value. -/
theorem floor_eq {x : Binary64} {v : ℚ} (hx : x.toRat? = some v) : x.floor = ofInt ⌊v⌋ := by
  cases x with
  | finite negative code =>
    obtain rfl := Option.some.inj hx
    exact congrArg ofInt (Rat.floor_intCast_div_natCast _ _).symm
  | infinite negative => cases hx
  | nan => cases hx

/-- Going up is going up with the value. -/
theorem ceil_eq {x : Binary64} {v : ℚ} (hx : x.toRat? = some v) : x.ceil = ofInt ⌈v⌉ := by
  cases x with
  | finite negative code =>
    obtain rfl := Option.some.inj hx
    refine congrArg ofInt ?_
    rw [← InvolutiveNeg.neg_neg ⌈_⌉, ← Int.floor_neg, ← neg_div, ← Int.cast_neg,
      Rat.floor_intCast_div_natCast]
    rfl
  | infinite negative => cases hx
  | nan => cases hx

theorem toRat?_floor {x : Binary64} {v : ℚ} (hx : x.toRat? = some v) :
    x.floor.toRat? = some (⌊v⌋ : ℚ) := by
  rw [floor_eq hx]
  refine toRat?_ofInt hx (abs_lt.2 ⟨?_, ?_⟩)
  · linarith only [Int.lt_floor_add_one v]
  · linarith only [Int.floor_le v]

theorem toRat?_ceil {x : Binary64} {v : ℚ} (hx : x.toRat? = some v) :
    x.ceil.toRat? = some (⌈v⌉ : ℚ) := by
  rw [ceil_eq hx]
  refine toRat?_ofInt hx (abs_lt.2 ⟨?_, ?_⟩)
  · linarith only [Int.le_ceil v]
  · linarith only [Int.ceil_lt_add_one v]

/-! ## To the nearest -/

/-- A difference of magnitudes that is a magnitude is not rounded. -/
theorem sub_eq_of_add_eq {c d r : Fin infinityCode}
    (h : magnitude d + magnitude r = magnitude c) :
    (finite false c).sub (finite false d) = finite false r := by
  have hunits : signed false (magnitude c) + signed true (magnitude d) =
      ((magnitude r : Nat) : Int) := by
    rw [← h]
    unfold signed
    rw [if_neg Bool.false_ne_true, if_pos rfl]
    push_cast
    ring
  show ofUnits false (signed false (magnitude c) + signed true (magnitude d)) = _
  rw [hunits, ofUnits_magnitude]

/-- Taking the integer below a magnitude away from it leaves its fraction. -/
theorem exists_sub_floor (c : Fin infinityCode) : ∃ r : Fin infinityCode,
    magnitude r = magnitude c % unitsPerOne ∧
      (finite false c).sub (ofInt (magnitude c / unitsPerOne : Nat)) = finite false r := by
  have hdivmod := Nat.div_add_mod (magnitude c) unitsPerOne
  have hmod := Nat.mod_lt (magnitude c) unitsPerOne_pos
  obtain ⟨one, hone⟩ := exists_magnitude_eq_unitsPerOne
  obtain ⟨r, hr⟩ := exists_magnitude_eq_mod c (d := one) (hone ▸ unitsPerOne_pos)
  rw [hone] at hr
  obtain ⟨d, hd⟩ := exists_magnitude_eq_near c (n := magnitude c / unitsPerOne)
    (by rw [Nat.succ_mul, Nat.mul_comm]; generalize unitsPerOne = units at *; omega)
    (by rw [Nat.mul_comm]; generalize unitsPerOne = units at *; omega)
  have hwhole : ofInt (magnitude c / unitsPerOne : Nat) = finite false d := by
    have hd' : magnitude d = ((magnitude c / unitsPerOne : Nat) : Int).natAbs * unitsPerOne := by
      rw [Int.natAbs_natCast, hd]
    rw [ofInt_eq_finite hd', decide_eq_false (not_lt.2 (Int.natCast_nonneg _))]
  refine ⟨r, hr, ?_⟩
  rw [hwhole]
  refine sub_eq_of_add_eq ?_
  rw [hd, hr, Nat.mul_comm]
  exact hdivmod

/-- A half is at most a number if twice its magnitude is at least one. -/
theorem half_le (r : Fin infinityCode) :
    half.le (finite false r) = decide (unitsPerOne ≤ 2 * magnitude r) := by
  have hhalf : unitsPerOne = 2 * magnitude 0x3fe0000000000000 := by decide +kernel
  show decide (((magnitude 0x3fe0000000000000 : Nat) : Int) ≤ (magnitude r : Nat)) = _
  rw [decide_eq_decide, Int.ofNat_le, hhalf]
  exact (Nat.mul_le_mul_left_iff Nat.two_pos).symm

/-- A quotient is its integer part and a fraction. -/
theorem div_eq_div_add_mod_div {p q : Nat} (hq : 0 < q) :
    (p : ℚ) / q = (p / q : Nat) + ((p % q : Nat) : ℚ) / q := by
  rw [add_div' _ _ _ (ne_of_gt (Nat.cast_pos.2 hq))]
  congr 1
  exact_mod_cast (Nat.div_add_mod' p q).symm

theorem half_le_div_iff {p q : Nat} (hq : 0 < q) : 1 / 2 ≤ (p : ℚ) / q ↔ q ≤ 2 * p := by
  rw [le_div_iff₀ (Nat.cast_pos.2 hq), div_mul_eq_mul_div, one_mul, div_le_iff₀' two_pos]
  exact_mod_cast Iff.rfl

/-- **The nearest integer** is found by the subtraction. -/
theorem nearestInteger_eq (c : Fin infinityCode) :
    nearestInteger (finite false c) (floorUnits (magnitude c)) =
      ⌊(magnitude c : ℚ) / unitsPerOne + 1 / 2⌋ := by
  obtain ⟨r, hr, hsub⟩ := exists_sub_floor c
  have hunits := unitsPerOne_rat_pos
  have hmod := Nat.mod_lt (magnitude c) unitsPerOne_pos
  have hvalue : (magnitude c : ℚ) / unitsPerOne =
      (magnitude c / unitsPerOne : Nat) + (magnitude r : ℚ) / unitsPerOne :=
    hr ▸ div_eq_div_add_mod_div unitsPerOne_pos
  rw [← hr] at hmod
  have hless : (magnitude r : ℚ) / unitsPerOne < 1 :=
    (div_lt_one hunits).2 (Nat.cast_lt.2 hmod)
  have hhalf := half_le_div_iff (p := magnitude r) unitsPerOne_pos
  have hfloor : floorUnits (magnitude c) = ((magnitude c / unitsPerOne : Nat) : Int) :=
    (Int.natCast_div _ _).symm
  have hnonneg := magnitude_div_nonneg r
  unfold nearestInteger
  rw [hfloor, hsub, half_le, eq_comm, Int.floor_eq_iff, hvalue]
  generalize magnitude c / unitsPerOne = whole
  simp only [decide_eq_true_eq, ← hhalf]
  split
  case isTrue hge =>
    rw [Int.cast_add, Int.cast_natCast, Int.cast_one]
    exact ⟨by linarith only [hge], by linarith only [hless]⟩
  case isFalse hlt =>
    rw [Int.cast_natCast]
    exact ⟨by linarith only [hnonneg], by linarith only [not_le.1 hlt]⟩

/-- Going to the nearest is going to the nearest with the absolute value. -/
theorem round_eq {x : Binary64} {v : ℚ} (hx : x.toRat? = some v) :
    x.round = (ofInt ⌊|v| + 1 / 2⌋).withSign x.isNegative := by
  obtain ⟨negative, c, rfl, rfl⟩ := exists_of_toRat? hx
  rw [abs_signedRat, abs_of_nonneg (magnitude_div_nonneg c), ← nearestInteger_eq]
  rfl

theorem isNegative_withSign {x : Binary64} {v : ℚ} (hx : x.toRat? = some v) (negative : Bool) :
    (x.withSign negative).isNegative = negative := by
  obtain ⟨_, c, rfl, -⟩ := exists_of_toRat? hx
  rfl

theorem toRat?_withSign {x : Binary64} {v : ℚ} (hx : x.toRat? = some v) (negative : Bool) :
    (x.withSign negative).toRat? = some (signedRat negative |v|) := by
  obtain ⟨_, c, rfl, rfl⟩ := exists_of_toRat? hx
  rw [abs_signedRat, abs_of_nonneg (magnitude_div_nonneg c)]
  exact toRat?_finite negative c

/-- What a magnitude is rounded to is not negative. -/
theorem floor_abs_add_half_nonneg (v : ℚ) : 0 ≤ ⌊|v| + 1 / 2⌋ :=
  Int.floor_nonneg.2 (add_nonneg (abs_nonneg v) (by norm_num))

/-- The nearest integer of a number is the value of one. -/
theorem toRat?_ofInt_floor_abs_add_half {x : Binary64} {v : ℚ} (hx : x.toRat? = some v) :
    (ofInt ⌊|v| + 1 / 2⌋).toRat? = some (⌊|v| + 1 / 2⌋ : ℚ) := by
  have habs : (x.withSign false).toRat? = some |v| := toRat?_withSign hx false
  refine toRat?_ofInt habs (abs_lt.2 ⟨?_, ?_⟩)
  · linarith only [Int.lt_floor_add_one (|v| + 1 / 2)]
  · linarith only [Int.floor_le (|v| + 1 / 2)]

theorem toRat?_round {x : Binary64} {v : ℚ} (hx : x.toRat? = some v) :
    x.round.toRat? = some (signedRat x.isNegative (⌊|v| + 1 / 2⌋ : ℚ)) := by
  have hnonneg : (0 : ℚ) ≤ ⌊|v| + 1 / 2⌋ := Int.cast_nonneg (floor_abs_add_half_nonneg v)
  rw [round_eq hx, toRat?_withSign (toRat?_ofInt_floor_abs_add_half hx), abs_of_nonneg hnonneg]

theorem isNegative_round {x : Binary64} {v : ℚ} (hx : x.toRat? = some v) :
    x.round.isNegative = x.isNegative := by
  rw [round_eq hx, isNegative_withSign (toRat?_ofInt_floor_abs_add_half hx)]

/-! ## Twice is as good as once -/

theorem floor_floor (x : Binary64) : x.floor.floor = x.floor := by
  cases x with
  | finite negative code =>
    have hx := toRat?_finite negative code
    rw [floor_eq (toRat?_floor hx), Int.floor_intCast, ← floor_eq hx]
  | infinite negative => rfl
  | nan => rfl

theorem ceil_ceil (x : Binary64) : x.ceil.ceil = x.ceil := by
  cases x with
  | finite negative code =>
    have hx := toRat?_finite negative code
    rw [ceil_eq (toRat?_ceil hx), Int.ceil_intCast, ← ceil_eq hx]
  | infinite negative => rfl
  | nan => rfl

theorem round_round (x : Binary64) : x.round.round = x.round := by
  cases x with
  | finite negative code =>
    have hx := toRat?_finite negative code
    have hhalf : ⌊(1 / 2 : ℚ)⌋ = 0 := by norm_num
    rw [round_eq (toRat?_round hx), isNegative_round hx, abs_signedRat, ← Int.cast_abs,
      abs_of_nonneg (floor_abs_add_half_nonneg _), Int.floor_intCast_add, hhalf, add_zero,
      ← round_eq hx]
  | infinite negative => rfl
  | nan => rfl

/-! ## Order -/

/-- A monotone function of magnitudes that leaves zero alone is monotone with the signs put
back. -/
theorem signedRat_le_signedRat {h : ℚ → ℚ} (hmono : Monotone h) (hzero : h 0 = 0) {v w : ℚ}
    {s t : Bool} (hv : HasSign v s) (hw : HasSign w t) (hle : v ≤ w) :
    signedRat s (h |v|) ≤ signedRat t (h |w|) := by
  have hnonneg : ∀ r : ℚ, 0 ≤ h |r| := fun r => hzero ▸ hmono (abs_nonneg r)
  cases s with
  | false =>
    have hv' : 0 ≤ v := hv
    cases t with
    | false =>
      have hw' : 0 ≤ w := hw
      rw [abs_of_nonneg hv', abs_of_nonneg hw']
      exact hmono hle
    | true =>
      have hw' : w ≤ 0 := hw
      obtain rfl : v = 0 := le_antisymm (hle.trans hw') hv'
      obtain rfl : w = 0 := le_antisymm hw' hle
      rw [abs_zero, hzero]
      exact neg_zero.ge
  | true =>
    have hv' : v ≤ 0 := hv
    cases t with
    | false => exact (neg_nonpos.2 (hnonneg v)).trans (hnonneg w)
    | true =>
      have hw' : w ≤ 0 := hw
      rw [abs_of_nonpos hv', abs_of_nonpos hw']
      exact neg_le_neg (hmono (neg_le_neg hle))

/-! ## The three functions -/

/-- **Rounding to whole numbers is exact.**  Of a finite number `floor` and `ceil` are the greatest
integer that is not above it and the least that is not below it, with the sign of the integer,
and `round` is the greater of the integers nearest to its absolute value, with the sign of the
number.  Each of the three leaves its results alone, is monotone, and hands on what is not
finite. -/
theorem rounding_is_exact :
    (∀ (x : Binary64) (v : ℚ), x.toRat? = some v →
      (∃ n : ℤ, IsGreatest {k : ℤ | (k : ℚ) ≤ v} n ∧
        (Builtin.floor.apply x).toRat? = some (n : ℚ) ∧
        (Builtin.floor.apply x).isNegative = decide (n < 0)) ∧
      (∃ n : ℤ, IsLeast {k : ℤ | v ≤ (k : ℚ)} n ∧
        (Builtin.ceil.apply x).toRat? = some (n : ℚ) ∧
        (Builtin.ceil.apply x).isNegative = decide (n < 0)) ∧
      (∃ n : ℤ, IsGreatest (nearestIntegers |v|) n ∧
        (Builtin.round.apply x).toRat? = some (signedRat x.isNegative n) ∧
        (Builtin.round.apply x).isNegative = x.isNegative)) ∧
    ∀ f ∈ [Builtin.floor, Builtin.ceil, Builtin.round],
      (∀ x : Binary64, f.apply (f.apply x) = f.apply x) ∧
      (∀ (x y : Binary64) (v w : ℚ), x.toRat? = some v → y.toRat? = some w → v ≤ w →
        ∃ v' w' : ℚ, (f.apply x).toRat? = some v' ∧ (f.apply y).toRat? = some w' ∧ v' ≤ w') ∧
      (∀ negative : Bool, f.apply (.infinite negative) = .infinite negative) ∧
      f.apply .nan = .nan := by
  constructor
  · intro x v hx
    refine ⟨⟨⌊v⌋, ⟨Int.floor_le v, fun k hk => Int.le_floor.2 hk⟩, toRat?_floor hx, ?_⟩,
      ⟨⌈v⌉, ⟨Int.le_ceil v, fun k hk => Int.ceil_le.2 hk⟩, toRat?_ceil hx, ?_⟩,
      ⟨⌊|v| + 1 / 2⌋, isGreatest_nearestIntegers |v|, toRat?_round hx, isNegative_round hx⟩⟩
    · exact (congrArg isNegative (floor_eq hx)).trans (isNegative_ofInt _)
    · exact (congrArg isNegative (ceil_eq hx)).trans (isNegative_ofInt _)
  · intro f hf
    simp only [List.mem_cons, List.not_mem_nil, or_false] at hf
    obtain rfl | rfl | rfl := hf
    · refine ⟨floor_floor, fun x y v w hx hy hle => ?_, fun _ => rfl, rfl⟩
      exact ⟨_, _, toRat?_floor hx, toRat?_floor hy, Int.cast_le.2 (Int.floor_le_floor hle)⟩
    · refine ⟨ceil_ceil, fun x y v w hx hy hle => ?_, fun _ => rfl, rfl⟩
      exact ⟨_, _, toRat?_ceil hx, toRat?_ceil hy, Int.cast_le.2 (Int.ceil_le_ceil hle)⟩
    · refine ⟨round_round, fun x y v w hx hy hle => ?_, fun _ => rfl, rfl⟩
      refine ⟨_, _, toRat?_round hx, toRat?_round hy, ?_⟩
      refine signedRat_le_signedRat (h := fun r => (⌊r + 1 / 2⌋ : ℚ)) ?_ ?_
        (hasSign_of_toRat? hx) (hasSign_of_toRat? hy) hle
      · exact fun r s hrs => Int.cast_le.2 (Int.floor_le_floor (by linarith only [hrs]))
      · norm_num

/-- Of the number just below one half, where a rounded addition would go wrong, and of minus one
half. -/
theorem rounding_below_half :
    ∃ v w : ℚ, (finite false ⟨0x3fdfffffffffffff, by decide⟩).toRat? = some v ∧
      (finite true ⟨0x3fe0000000000000, by decide⟩).toRat? = some w ∧
      (∃ n : ℤ, IsGreatest (nearestIntegers |v|) n ∧
        (Builtin.round.apply (finite false ⟨0x3fdfffffffffffff, by decide⟩)).toRat? =
          some (signedRat false n)) ∧
      (∃ n : ℤ, IsLeast {k : ℤ | w ≤ (k : ℚ)} n ∧
        (Builtin.ceil.apply (finite true ⟨0x3fe0000000000000, by decide⟩)).isNegative =
          decide (n < 0)) ∧
      Builtin.round.apply (Builtin.round.apply (finite true ⟨0x3fe0000000000000, by decide⟩)) =
        Builtin.round.apply (finite true ⟨0x3fe0000000000000, by decide⟩) := by
  obtain ⟨-, -, n, hn, hround, -⟩ :=
    rounding_is_exact.1 _ _ (toRat?_finite false ⟨0x3fdfffffffffffff, by decide⟩)
  obtain ⟨-, ⟨m, hm, -, hceil⟩, -⟩ :=
    rounding_is_exact.1 _ _ (toRat?_finite true ⟨0x3fe0000000000000, by decide⟩)
  exact ⟨_, _, toRat?_finite _ _, toRat?_finite _ _, ⟨n, hn, hround⟩, ⟨m, hm, hceil⟩,
    (rounding_is_exact.2 .round (by decide)).1 _⟩

end Binary64

end LineCalculator
