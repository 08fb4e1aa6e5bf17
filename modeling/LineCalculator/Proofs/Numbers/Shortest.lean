import LineCalculator.Decimal.Layout
import LineCalculator.Proofs.Numbers.Literals

/-!
# The shortest decimal reads back

The decimal that is searched for a number reads back as the number
(`Decimal.shortest_spec`).  Nothing has to be known of the candidates for that: the
search tries each of them and ends, if none before did, with the exact expansion, which is the
number itself.

How many digits the decimal has is not said, but how large it is: it is one of the two
neighbours of the expansion on some grid, so that its point stands where that of the expansion
does (`Decimal.point_shortest_mem`).
-/

namespace LineCalculator

open Binary64

namespace Decimal

/-! ## The search -/

/-- A neighbour of an expansion that reads back is below it or above it. -/
theorem neighbour?_spec {readsBack : Decimal → Bool} {whole dropped : Nat} {d : Decimal}
    (h : neighbour? readsBack whole dropped = some d) :
    readsBack d = true ∧ (d = below whole dropped ∨ d = above whole dropped) := by
  unfold neighbour? at h
  split at h
  case h_1 hbelow habove =>
    rw [← Option.some.inj h]
    split
    case isTrue => exact ⟨habove, Or.inr rfl⟩
    case isFalse => exact ⟨hbelow, Or.inl rfl⟩
  case h_2 hbelow _ => exact Option.some.inj h ▸ ⟨hbelow, Or.inl rfl⟩
  case h_3 _ habove => exact Option.some.inj h ▸ ⟨habove, Or.inr rfl⟩
  case h_4 => cases h

/-- What the search finds reads back if the expansion itself does. -/
theorem search_spec (readsBack : Decimal → Bool) {whole : Nat}
    (hexact : readsBack (below whole 0) = true) (most : Nat) :
    readsBack (search readsBack whole most) = true ∧ ∃ dropped ≤ most,
      search readsBack whole most = below whole dropped ∨
        search readsBack whole most = above whole dropped := by
  induction most with
  | zero => exact ⟨hexact, 0, Nat.le_refl 0, Or.inl rfl⟩
  | succ most ih =>
    unfold search
    split
    case h_1 d hfound =>
      obtain ⟨hback, hneighbour⟩ := neighbour?_spec hfound
      exact ⟨hback, most + 1, Nat.le_refl _, hneighbour⟩
    case h_2 =>
      obtain ⟨hback, dropped, hle, hneighbour⟩ := ih
      exact ⟨hback, dropped, Nat.le_succ_of_le hle, hneighbour⟩

/-! ## The expansion -/

theorem expansion_eq (units : Nat) : expansion units = units * 5 ^ unitPlaces :=
  congrArg (units * ·) (by decide +kernel)

/-- The expansion of a magnitude is the magnitude. -/
theorem value_below_expansion (units : Nat) :
    (below (expansion units) 0).value = (units : ℚ) / unitsPerOne := by
  have hvalue : (below (expansion units) 0).value =
      ((expansion units / 1 : Nat) : ℚ) * 10 ^ (-(unitPlaces : Int)) := rfl
  have hten : (10 : ℚ) ^ unitPlaces = 2 ^ unitPlaces * 5 ^ unitPlaces := by
    rw [← mul_pow]
    norm_num
  rw [hvalue, Nat.div_one, expansion_eq, unitsPerOne_eq, zpow_neg, zpow_natCast, hten]
  push_cast
  field_simp

/-- **The shortest decimal reads back**, and it is a neighbour of the expansion. -/
theorem shortest_spec (code : Fin infinityCode) :
    (shortest code).toBinary64 false = finite false code ∧
      ∃ dropped < (Nat.toDigits 10 (expansion (magnitude code))).length,
        shortest code = below (expansion (magnitude code)) dropped ∨
          shortest code = above (expansion (magnitude code)) dropped := by
  have hexact : ((below (expansion (magnitude code)) 0).toBinary64 false == finite false code) =
      true := by
    rw [toBinary64_eq_ofRat, value_below_expansion, ofRat_magnitude, beq_self_eq_true]
  obtain ⟨hback, dropped, hle, hneighbour⟩ := search_spec
    (fun d => d.toBinary64 false == finite false code) hexact
    ((Nat.toDigits 10 (expansion (magnitude code))).length - 1)
  have hpos := Nat.length_toDigits_pos (b := 10) (n := expansion (magnitude code))
  exact ⟨beq_iff_eq.1 hback, dropped, by omega, hneighbour⟩

/-! ## The size of the shortest decimal -/

/-- A neighbour on a grid, counted in steps of the grid, has as many digits as are left of the
expansion. -/
theorem length_toDigits_neighbour {whole dropped n a b : Nat}
    (hn : n = whole / 10 ^ dropped ∨ n = whole / 10 ^ dropped + 1) (hlow : 10 ^ a ≤ whole)
    (hhigh : 2 * whole ≤ 10 ^ b) (hdropped : dropped < (Nat.toDigits 10 whole).length) :
    a < (Nat.toDigits 10 n).length + dropped ∧ (Nat.toDigits 10 n).length + dropped ≤ b := by
  have hten := Nat.pow_pos (n := dropped) (show 0 < 10 by decide)
  constructor
  · by_contra hshort
    have hpos := Nat.length_toDigits_pos (b := 10) (n := n)
    have hlt := (Nat.length_toDigits_le_iff (b := 10) (n := n) (k := a - dropped) (by decide)
      (by omega)).1 (by omega)
    have hcut : whole / 10 ^ dropped < 10 ^ (a - dropped) := by omega
    rw [Nat.div_lt_iff_lt_mul hten, ← Nat.pow_add, Nat.sub_add_cancel (by omega)] at hcut
    omega
  · have hone : 1 ≤ 10 ^ a := Nat.pow_pos (by decide)
    have hb : 0 < b := by
      by_contra hzero
      rw [Nat.le_zero.1 (Nat.le_of_not_lt hzero), Nat.pow_zero] at hhigh
      omega
    have hlength := (Nat.length_toDigits_le_iff (b := 10) (n := whole) (by decide) hb).2 (by omega)
    obtain ⟨k, rfl⟩ : ∃ k, b = k + 1 + dropped := ⟨b - dropped - 1, by omega⟩
    -- half of a power of ten is at least one less than the power
    have hcut : 2 * (whole / 10 ^ dropped) ≤ 10 ^ (k + 1) := by
      refine Nat.le_trans (Nat.mul_div_le_mul_div_assoc 2 whole (10 ^ dropped)) ?_
      refine Nat.div_le_of_le_mul ?_
      rwa [← Nat.pow_add, Nat.add_comm dropped]
    have hlarge : 10 ≤ 10 ^ (k + 1) := Nat.le_self_pow (Nat.succ_ne_zero k) 10
    have hlt := (Nat.length_toDigits_le_iff (b := 10) (n := n) (k := k + 1) (by decide)
      (Nat.succ_pos k)).2 (by omega)
    omega

/-- **Where the point of the shortest decimal stands**, of a number from `0.0001` up to
`2 ^ 52`. -/
theorem point_shortest_mem {code : Fin infinityCode}
    (hlow : unitsPerOne ≤ 10 ^ 4 * magnitude code)
    (hhigh : magnitude code < 2 ^ 52 * unitsPerOne) :
    -3 ≤ (shortest code).point ∧ (shortest code).point ≤ 16 := by
  obtain ⟨-, dropped, hdropped, hneighbour⟩ := shortest_spec code
  have hten : 10 ^ unitPlaces = unitsPerOne * 5 ^ unitPlaces := by
    rw [unitsPerOne_eq, ← Nat.mul_pow]
  have hplaces : unitPlaces = unitPlaces - 4 + 4 := by decide
  have hlow' : 10 ^ (unitPlaces - 4) ≤ expansion (magnitude code) := by
    refine Nat.le_of_mul_le_mul_right (c := 10 ^ 4) ?_ (by decide)
    rw [← Nat.pow_add, ← hplaces, hten, expansion_eq, Nat.mul_comm _ (10 ^ 4), ← Nat.mul_assoc]
    exact Nat.mul_le_mul_right _ hlow
  have hhigh' : 2 * expansion (magnitude code) ≤ 10 ^ (16 + unitPlaces) := by
    rw [Nat.pow_add, hten, expansion_eq, ← Nat.mul_assoc, ← Nat.mul_assoc]
    refine Nat.mul_le_mul_right _ ?_
    generalize unitsPerOne = units at hhigh
    omega
  have hdigits : (shortest code).digits = expansion (magnitude code) / 10 ^ dropped ∨
      (shortest code).digits = expansion (magnitude code) / 10 ^ dropped + 1 := by
    rcases hneighbour with heq | heq
    · exact Or.inl (congrArg digits heq)
    · exact Or.inr (congrArg digits heq)
  have hexponent : (shortest code).exponent = (dropped : Int) - unitPlaces := by
    rcases hneighbour with heq | heq
    · exact congrArg exponent heq
    · exact congrArg exponent heq
  obtain ⟨hlower, hupper⟩ := length_toDigits_neighbour hdigits hlow' hhigh' hdropped
  unfold point
  rw [hexponent]
  generalize (Nat.toDigits 10 (shortest code).digits).length = length at hlower hupper ⊢
  -- in the facts that go here powers of ten stand that would be worked out
  clear hlow hhigh hten hlow' hhigh'
  omega

end Decimal

end LineCalculator
