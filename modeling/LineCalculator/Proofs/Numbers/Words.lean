import Mathlib.Data.Int.ModEq
import LineCalculator.Evaluation.Operation
import LineCalculator.Proofs.Numbers.Exactness

/-!
# Bitwise operators are operators on words

The bitwise operators are defined on all integers, whose binary digits go on for ever, and what
they yield is reduced to 64 bits once.  This module shows that a vector of 64 bits would do from
the beginning: the value of each operator is what the operation on the two vectors yields, read
with a sign and rounded (`bitwise_operators_are_word_operators`).

## 1.  The digits of an integer

Of an integer only finitely many binary digits are different from the others, and these are
stored (`Word64.digits`).  A vector takes the lowest of them (`getLsbD_ofInt`), so what is done
digit by digit may be done before or after the vector is taken (`ofInt_digitwise`).  For the
same reason a mask of `k` ones leaves what is left of a division by `2 ^ k`, of a negative integer
as well (`and_mask`).

## 2.  Reduction

Reducing an integer yields the one integer in the range that is congruent to it (`wrap_eq_iff`),
which is the signed value of its vector (`wrap_eq_toInt`).

## 3.  From numbers to integers

The integer of a number is in the range, so that its vector loses nothing (`toInt_word`).  Only
this makes the shift to the right agree: it divides the integer, and the vector its signed value.
-/

namespace LineCalculator

namespace Word64

/-! ## 1.  The digits of an integer -/

/-- A binary digit of an integer, counted from the lowest. -/
def digit (a : Int) (i : Nat) : Bool := (digits a).2.testBit i != (digits a).1

theorem digits_ofDigits (d : Bool × Nat) : digits (ofDigits d) = d := by
  obtain ⟨most, n⟩ := d
  cases most with
  | false => rfl
  | true => rfl

/-- What is combined digit by digit has the combined digits. -/
theorem digit_digitwise (combine : Bool → Bool → Bool) (a b : Int) (i : Nat) :
    digit (digitwise combine a b) i = combine (digit a i) (digit b i) := by
  unfold digitwise digit
  dsimp only
  rw [digits_ofDigits]
  dsimp only
  rw [Nat.testBit_bitwise (by simp), Bool.bne_assoc, bne_self_eq_false, Bool.bne_false]

/-- The digits of a natural number are those that it is known to have. -/
theorem digit_natCast (n i : Nat) : digit (n : Int) i = n.testBit i :=
  Bool.bne_false _

theorem digit_negSucc (n i : Nat) : digit (Int.negSucc n) i = !n.testBit i :=
  Bool.bne_true _

/-- A vector takes the lowest digits of an integer. -/
theorem getLsbD_ofInt {w i : Nat} (a : Int) (hi : i < w) :
    (BitVec.ofInt w a).getLsbD i = digit a i := by
  cases a with
  | ofNat n =>
    rw [Int.ofNat_eq_natCast, BitVec.ofInt_natCast, BitVec.getLsbD_ofNat, digit_natCast,
      decide_eq_true hi, Bool.true_and]
  | negSucc n =>
    rw [BitVec.ofInt_negSucc_eq_not_ofNat, BitVec.getLsbD_not, BitVec.getLsbD_ofNat,
      digit_negSucc, decide_eq_true hi, Bool.true_and, Bool.true_and]

/-- **Digit by digit** integers are combined before a vector is taken or after. -/
theorem ofInt_digitwise {w : Nat} {combine : Bool → Bool → Bool} {v : BitVec w} {a b : Int}
    (hv : ∀ i < w, v.getLsbD i =
      combine ((BitVec.ofInt w a).getLsbD i) ((BitVec.ofInt w b).getLsbD i)) :
    BitVec.ofInt w (digitwise combine a b) = v := by
  refine BitVec.eq_of_getLsbD_eq fun i hi => ?_
  rw [hv i hi, getLsbD_ofInt _ hi, getLsbD_ofInt _ hi, getLsbD_ofInt _ hi, digit_digitwise]

theorem ofInt_and (w : Nat) (a b : Int) :
    BitVec.ofInt w (and a b) = BitVec.ofInt w a &&& BitVec.ofInt w b :=
  ofInt_digitwise fun _ _ => BitVec.getLsbD_and

theorem ofInt_or (w : Nat) (a b : Int) :
    BitVec.ofInt w (or a b) = BitVec.ofInt w a ||| BitVec.ofInt w b :=
  ofInt_digitwise fun _ _ => BitVec.getLsbD_or

theorem ofInt_xor (w : Nat) (a b : Int) :
    BitVec.ofInt w (xor a b) = BitVec.ofInt w a ^^^ BitVec.ofInt w b :=
  ofInt_digitwise fun _ _ => BitVec.getLsbD_xor

/-- Turning all digits round goes through the opposite integer. -/
theorem ofInt_complement (w : Nat) (a : Int) :
    BitVec.ofInt w (complement a) = ~~~BitVec.ofInt w a := by
  unfold complement
  cases a with
  | ofNat n =>
    have hneg : -(n : Int) - 1 = Int.negSucc n := by omega
    rw [Int.ofNat_eq_natCast, hneg, BitVec.ofInt_negSucc_eq_not_ofNat]
    rfl
  | negSucc n =>
    have hpos : -Int.negSucc n - 1 = (n : Int) := by omega
    rw [hpos, BitVec.ofInt_negSucc_eq_not_ofNat, BitVec.not_not]
    rfl

/-- Of what is combined with a mask only digits under the mask are left. -/
theorem and_natCast (a : Int) (n : Nat) :
    ∃ m : Nat, and a n = m ∧ ∀ i, m.testBit i = (digit a i && n.testBit i) := by
  obtain ⟨m, hm⟩ : ∃ m : Nat, and a n = m := by
    cases a with
    | ofNat k => exact ⟨_, rfl⟩
    | negSucc k => exact ⟨_, rfl⟩
  refine ⟨m, hm, fun i => ?_⟩
  rw [← digit_natCast m, ← digit_natCast n, ← hm]
  exact digit_digitwise _ _ _ _

/-- The lowest digits of an integer are those of what is left of a division. -/
theorem testBit_emod (a : Int) (k i : Nat) :
    (a % (2 ^ k : Nat)).toNat.testBit i = (digit a i && decide (i < k)) := by
  cases a with
  | ofNat n =>
    rw [Int.ofNat_eq_natCast, ← Int.natCast_emod, Int.toNat_natCast, Nat.testBit_mod_two_pow,
      digit_natCast, Bool.and_comm]
  | negSucc n =>
    have hlt := Nat.mod_lt n (Nat.two_pow_pos k)
    have hrest : Int.negSucc n % (2 ^ k : Nat) = (2 ^ k - (n % 2 ^ k + 1) : Nat) := by
      rw [Int.negSucc_emod _ (Int.natCast_pos.2 (Nat.two_pow_pos k)), ← Int.natCast_emod]
      omega
    rw [hrest, Int.toNat_natCast, Nat.testBit_two_pow_sub_succ hlt, Nat.testBit_mod_two_pow,
      digit_negSucc]
    by_cases hi : i < k
    · rw [decide_eq_true hi, Bool.true_and, Bool.true_and, Bool.and_true]
    · rw [decide_eq_false hi, Bool.false_and, Bool.and_false]

/-- **A mask of ones** leaves what is left of a division by a power of two. -/
theorem and_mask (a : Int) (k : Nat) : and a (2 ^ k - 1 : Nat) = a % (2 ^ k : Nat) := by
  obtain ⟨m, hm, hdigits⟩ := and_natCast a (2 ^ k - 1)
  have hnonneg : 0 ≤ a % (2 ^ k : Nat) :=
    Int.emod_nonneg _ (Int.natCast_ne_zero.2 (Nat.ne_of_gt (Nat.two_pow_pos k)))
  have heq : m = (a % (2 ^ k : Nat)).toNat := by
    refine Nat.eq_of_testBit_eq fun i => ?_
    rw [hdigits, Nat.testBit_two_pow_sub_one, testBit_emod]
  rw [hm, heq, Int.toNat_of_nonneg hnonneg]

/-! ## 2.  Reduction -/

/-- **Reducing an integer** yields the one integer in the range that is congruent to it. -/
theorem wrap_eq_iff (n m : Int) :
    wrap n = m ↔ -2 ^ 63 ≤ m ∧ m ≤ 2 ^ 63 - 1 ∧ m ≡ n [ZMOD 2 ^ 64] := by
  have hmask : and n 0xffffffffffffffff = n % 0x10000000000000000 := and_mask n 64
  unfold wrap Int.ModEq
  dsimp only
  rw [hmask]
  unfold maxValue
  split <;> omega

/-- Reducing an integer yields the signed value of its vector. -/
theorem wrap_eq_toInt (n : Int) : wrap n = (BitVec.ofInt 64 n).toInt := by
  have hlow := BitVec.le_toInt (BitVec.ofInt 64 n)
  have hhigh := BitVec.toInt_lt (x := BitVec.ofInt 64 n)
  have hcongr : (BitVec.ofInt 64 n).toInt % (2 ^ 64 : Nat) = n % (2 ^ 64 : Nat) := by
    rw [BitVec.toInt_ofInt, Int.bmod_emod]
  rw [wrap_eq_iff]
  unfold Int.ModEq
  omega

/-! ## 3.  From numbers to integers -/

/-- The first number beyond the range. -/
theorem upperEnd_eq : upperEnd = .finite false ⟨0x43e0000000000000, by decide⟩ :=
  Binary64.ofInt_eq_finite (by decide +kernel)

theorem toRat?_end (negative : Bool) :
    (Binary64.finite negative ⟨0x43e0000000000000, by decide⟩).toRat? =
      some (Binary64.signedRat negative (2 ^ 63)) := by
  have hvalue : Binary64.magnitude 0x43e0000000000000 = 2 ^ 63 * Binary64.unitsPerOne := by
    decide +kernel
  rw [Binary64.toRat?_finite, hvalue, Nat.cast_mul, mul_div_assoc,
    div_self (ne_of_gt Binary64.unitsPerOne_rat_pos), mul_one, Nat.cast_pow, Nat.cast_ofNat]

theorem toRat?_upperEnd : upperEnd.toRat? = some ((2 ^ 63 : Int) : ℚ) := by
  rw [upperEnd_eq, toRat?_end, Binary64.signedRat_false]
  norm_num

theorem toRat?_lowerEnd : lowerEnd.toRat? = some ((-2 ^ 63 : Int) : ℚ) := by
  unfold lowerEnd
  rw [upperEnd_eq]
  refine (toRat?_end true).trans ?_
  rw [Binary64.signedRat_true]
  norm_num

/-- The whole part of a finite number is its value without its fraction. -/
theorem truncate?_eq {x : Binary64} {v : ℚ} (hx : x.toRat? = some v) :
    x.truncate? = some (truncated v) := by
  obtain ⟨negative, c, rfl, rfl⟩ := Binary64.exists_of_toRat? hx
  rw [truncated_signedRat_div]
  rfl

/-- **The integer of a finite number** is its value without its fraction, held in the range. -/
theorem ofBinary64_eq {x : Binary64} {v : ℚ} (hx : x.toRat? = some v) :
    ofBinary64 x = max (-2 ^ 63) (min (2 ^ 63 - 1) (truncated v)) := by
  have hfinite : x.isNaN = false := by
    obtain ⟨_, _, rfl, -⟩ := Binary64.exists_of_toRat? hx
    rfl
  have habove := Binary64.le_eq_decide toRat?_upperEnd hx
  have hbelow := Binary64.le_eq_decide hx toRat?_lowerEnd
  unfold ofBinary64
  rw [hfinite, habove, hbelow, truncate?_eq hx, Option.getD_some, if_neg Bool.false_ne_true]
  simp only [decide_eq_true_eq]
  unfold minValue maxValue
  split
  case isTrue hge =>
    have h := truncated_mono hge
    rw [truncated_intCast] at h
    omega
  case isFalse hlt =>
    have hhigh := truncated_lt (not_le.1 hlt) (by norm_num)
    split
    case isTrue hle =>
      have h := truncated_mono hle
      rw [truncated_intCast] at h
      omega
    case isFalse hgt =>
      have h := truncated_mono (not_le.1 hgt).le
      rw [truncated_intCast] at h
      omega

theorem ofBinary64_infinite (negative : Bool) :
    ofBinary64 (.infinite negative) = if negative then -2 ^ 63 else 2 ^ 63 - 1 := by
  unfold ofBinary64 lowerEnd
  rw [upperEnd_eq]
  cases negative with
  | false => rfl
  | true => rfl

theorem ofBinary64_mem_range (x : Binary64) :
    -2 ^ 63 ≤ ofBinary64 x ∧ ofBinary64 x < 2 ^ 63 := by
  cases x with
  | finite negative code =>
    rw [ofBinary64_eq (Binary64.toRat?_finite negative code)]
    omega
  | infinite negative =>
    rw [ofBinary64_infinite]
    split <;> omega
  | nan => exact ⟨by decide, by decide⟩

/-- The vector of 64 bits that a number stands for. -/
def word (x : Binary64) : BitVec 64 := BitVec.ofInt 64 (ofBinary64 x)

/-- Nothing of the integer is lost in the vector. -/
theorem toInt_word (x : Binary64) : (word x).toInt = ofBinary64 x := by
  obtain ⟨hlow, hhigh⟩ := ofBinary64_mem_range x
  exact BitVec.toInt_ofInt_eq_self (by decide) hlow hhigh

/-! ## Shifts -/

/-- The distance of a shift is what is left of an integer after division by 64. -/
theorem shiftDistance_eq (b : Int) : shiftDistance b = (b % 64).toNat :=
  congrArg Int.toNat (and_mask b 6)

theorem ofInt_shiftLeft (w : Nat) (a b : Int) :
    BitVec.ofInt w (shiftLeft a b) = BitVec.ofInt w a <<< shiftDistance b := by
  have hpower : BitVec.ofInt w ((Nat.pow 2 (shiftDistance b) : Nat) : Int) =
      BitVec.twoPow w (shiftDistance b) := by
    refine BitVec.eq_of_toNat_eq ?_
    rw [BitVec.ofInt_natCast, BitVec.toNat_ofNat, BitVec.toNat_twoPow, Nat.pow_eq]
  unfold shiftLeft
  rw [BitVec.ofInt_mul, hpower, BitVec.shiftLeft_eq_mul_twoPow]

theorem ofInt_shiftRight {w : Nat} {v : BitVec w} {a : Int} (ha : v.toInt = a) (b : Int) :
    BitVec.ofInt w (shiftRight a b) = v.sshiftRight (shiftDistance b) := by
  rw [BitVec.sshiftRight_eq, Int.shiftRight_eq_div_pow, ha]
  rfl

/-! ## The operators -/

/-- A number is the one that the signed value of a vector is rounded to, zero being positive. -/
structure IsValueOf (v : BitVec 64) (r : Binary64) : Prop where
  nearest : Binary64.IsNearest (v.toInt : ℚ) r
  sign : r.isNegative = decide (v.toInt < 0)

/-- The number of an integer is that of its vector. -/
theorem isValueOf_ofInt_wrap {v : BitVec 64} {n : Int} (h : BitVec.ofInt 64 n = v) :
    IsValueOf v (Binary64.ofInt (wrap n)) := by
  rw [wrap_eq_toInt, h]
  exact ⟨Binary64.isNearest_ofInt _, Binary64.isNegative_ofInt _⟩

/-- The complement of an integer in the range is in the range, and needs no reduction. -/
theorem wrap_complement (x : Binary64) : wrap (complement (ofBinary64 x)) =
    complement (ofBinary64 x) := by
  obtain ⟨hlow, hhigh⟩ := ofBinary64_mem_range x
  rw [wrap_eq_iff]
  unfold complement
  exact ⟨by omega, by omega, rfl⟩

/-- **Bitwise operators are operators on words.**  A number stands for its value without its
fraction, held in the range of signed 64-bit integers, and not-a-number for zero; an integer is
reduced to the one in the range that is congruent to it; and each operator yields the number
nearest to the signed value of the vector that the operation on the vectors of its operands
yields.  A distance is reduced by 64, a negative one as well. -/
theorem bitwise_operators_are_word_operators :
    (ofBinary64 .nan = 0 ∧
      (∀ negative, ofBinary64 (.infinite negative) = if negative then -2 ^ 63 else 2 ^ 63 - 1) ∧
      ∀ (x : Binary64) (v : ℚ), x.toRat? = some v →
        ofBinary64 x = max (-2 ^ 63) (min (2 ^ 63 - 1) (truncated v))) ∧
    (∀ n m : Int, wrap n = m ↔ -2 ^ 63 ≤ m ∧ m ≤ 2 ^ 63 - 1 ∧ m ≡ n [ZMOD 2 ^ 64]) ∧
    ∀ x y : Binary64, (word x).toInt = ofBinary64 x ∧
      (∃ r, BinaryOp.bitAnd.apply x y = .ok r ∧ IsValueOf (word x &&& word y) r) ∧
      (∃ r, BinaryOp.bitOr.apply x y = .ok r ∧ IsValueOf (word x ||| word y) r) ∧
      (∃ r, BinaryOp.bitXor.apply x y = .ok r ∧ IsValueOf (word x ^^^ word y) r) ∧
      (∃ r, BinaryOp.shiftLeft.apply x y = .ok r ∧
        IsValueOf (word x <<< (ofBinary64 y % 64).toNat) r) ∧
      (∃ r, BinaryOp.shiftRight.apply x y = .ok r ∧
        IsValueOf ((word x).sshiftRight (ofBinary64 y % 64).toNat) r) ∧
      IsValueOf (~~~word x) (UnaryOp.complement.apply x) := by
  refine ⟨⟨rfl, ofBinary64_infinite, fun x v hx => ofBinary64_eq hx⟩, wrap_eq_iff,
    fun x y => ⟨toInt_word x, ?_, ?_, ?_, ?_, ?_, ?_⟩⟩
  · exact ⟨_, rfl, isValueOf_ofInt_wrap (ofInt_and 64 _ _)⟩
  · exact ⟨_, rfl, isValueOf_ofInt_wrap (ofInt_or 64 _ _)⟩
  · exact ⟨_, rfl, isValueOf_ofInt_wrap (ofInt_xor 64 _ _)⟩
  · rw [← shiftDistance_eq]
    exact ⟨_, rfl, isValueOf_ofInt_wrap (ofInt_shiftLeft 64 _ _)⟩
  · rw [← shiftDistance_eq]
    exact ⟨_, rfl, isValueOf_ofInt_wrap (ofInt_shiftRight (toInt_word x) _)⟩
  · have h := isValueOf_ofInt_wrap (ofInt_complement 64 (ofBinary64 x))
    rwa [wrap_complement] at h

/-- A shift to the right of the negative infinity, which stands for the lower end of the range,
by minus one, which goes 63 places. -/
theorem shiftRight_infinity_by_minus_one :
    (∃ v : ℚ, (Binary64.finite true ⟨0x3ff0000000000000, by decide⟩).toRat? = some v ∧
      ofBinary64 (.finite true ⟨0x3ff0000000000000, by decide⟩) =
        max (-2 ^ 63) (min (2 ^ 63 - 1) (truncated v))) ∧
    ∃ r, BinaryOp.shiftRight.apply (.infinite true)
        (.finite true ⟨0x3ff0000000000000, by decide⟩) = .ok r ∧
      IsValueOf ((BitVec.intMin 64).sshiftRight 63) r := by
  obtain ⟨⟨-, -, hfinite⟩, -, hoperators⟩ := bitwise_operators_are_word_operators
  have hone := Binary64.toRat?_finite true ⟨0x3ff0000000000000, by decide⟩
  obtain ⟨-, -, -, -, -, ⟨r, happly, hr⟩, -⟩ :=
    hoperators (.infinite true) (.finite true ⟨0x3ff0000000000000, by decide⟩)
  have hword : word (.infinite true) = BitVec.intMin 64 := by
    unfold word
    rw [ofBinary64_infinite]
    decide
  have hdistance :
      (ofBinary64 (.finite true ⟨0x3ff0000000000000, by decide⟩) % 64).toNat = 63 := by
    decide +kernel
  rw [hword, hdistance] at hr
  exact ⟨⟨_, hone, hfinite _ _ hone⟩, r, happly, hr⟩

end Word64

end LineCalculator
