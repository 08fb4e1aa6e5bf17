import Mathlib.Data.Nat.Cast.Field
import LineCalculator.Proofs.Numbers.Shortest
import LineCalculator.Proofs.Printing.DecimalText
import LineCalculator.Proofs.Printing.SignedNumbers

/-!
# Printed results lose nothing

No two numbers are printed as the same text: there is a way back from the text to the number
(`Binary64.ofPrinted_result`).  The way back reads the sign, then tells the word for an infinity
from a decimal, and rounds what the decimal denotes.

The calculator itself reads a printed number back where it is printed without an exponent, as
every integer is and every other number from `0.0001` on: a fraction is below `2 ^ 52`, so that
its point stands among its digits or near them (`Binary64.body_isLexeme`).  The text is then the
lexeme of a number literal, perhaps with a minus sign before it
(`printed_results_lose_nothing`).
-/

namespace LineCalculator

open Decimal Literal

namespace Binary64

/-! ## From the text back to the number -/

/-- The number of a sign that the text behind the sign stands for. -/
def ofUnsigned (negative : Bool) (body : List Char) : Binary64 :=
  if body = ['i', 'n', 'f'] then infinite negative else ofRat negative (textValue body)

/-- The number that a printed text stands for. -/
def ofPrinted : List Char → Binary64
  | '-' :: body => ofUnsigned true body
  | body => ofUnsigned false body

theorem ofPrinted_signText (negative : Bool) {body : List Char} (h : body.head? ≠ some '-') :
    ofPrinted (signText negative ++ body) = ofUnsigned negative body := by
  cases negative with
  | true => rfl
  | false =>
    show ofPrinted body = _
    unfold ofPrinted
    split
    case h_1 => exact absurd rfl h
    case h_2 => rfl

/-! ## The text of a finite number behind its sign -/

/-- The text of a magnitude. -/
def body (code : Fin infinityCode) : List Char :=
  if magnitude code % unitsPerOne = 0 then Nat.toDigits 10 (magnitude code / unitsPerOne)
  else (shortest code).layout .standard

theorem result_finite (negative : Bool) (code : Fin infinityCode) :
    (finite negative code).result = signText negative ++ body code := by
  have hresult : (finite negative code).result = if magnitude code % unitsPerOne = 0 then
      signText negative ++ Nat.toDigits 10 (magnitude code / unitsPerOne)
    else plain (finite negative code) := rfl
  rw [hresult]
  unfold body
  by_cases hwhole : magnitude code % unitsPerOne = 0
  · rw [if_pos hwhole, if_pos hwhole]
  · have hcode : code.val ≠ 0 := by
      intro hzero
      rw [hzero, magnitude_zero] at hwhole
      exact hwhole (Nat.zero_mod _)
    rw [if_neg hwhole, if_neg hwhole, plain, if_neg hcode]

theorem withSign_ofRat (s t : Bool) (r : ℚ) : (ofRat s r).withSign t = ofRat t r := by
  unfold ofRat ofUnitQuotient
  split <;> rfl

/-- **The text of a magnitude denotes it**, or a rational that is rounded to it. -/
theorem ofRat_textValue_body (negative : Bool) (code : Fin infinityCode) :
    ofRat negative (textValue (body code)) = finite negative code := by
  unfold body
  split
  case isTrue hwhole =>
    have hdigits := allDigits_toDigits (magnitude code / unitsPerOne)
    rw [textValue_eq_denoted (.digits hdigits), denoted_digits 10 hdigits,
      integerValue_toDigits, Nat.cast_div (Nat.dvd_of_mod_eq_zero hwhole)
        (Nat.cast_ne_zero.2 (Nat.ne_of_gt unitsPerOne_pos)), ofRat_magnitude]
  case isFalse =>
    have hback := (shortest_spec code).1
    rw [toBinary64_eq_ofRat] at hback
    rw [textValue_layout, ← withSign_ofRat false, hback]
    rfl

theorem head?_body_ne {c : Char} (hdigit : Head.isDigitOf .bare c = false) (hpoint : c ≠ '.')
    (hexponent : c ≠ 'e') (code : Fin infinityCode) : (body code).head? ≠ some c := by
  unfold body
  split
  case isTrue =>
    exact fun hc => Lexeme.ne (.digits (allDigits_toDigits _)) hdigit hpoint c
      (List.mem_of_mem_head? hc) rfl
  case isFalse => exact head?_layout_ne hdigit hpoint hexponent _ _

/-- **A printed text stands for the number that was printed.** -/
theorem ofPrinted_result {x : Binary64} (hx : x ≠ nan) : ofPrinted x.result = x := by
  cases x with
  | nan => exact absurd rfl hx
  | infinite negative => cases negative <;> rfl
  | finite negative code =>
    have hminus : (body code).head? ≠ some '-' :=
      head?_body_ne (by decide) (by decide) (by decide) code
    have hword : body code ≠ ['i', 'n', 'f'] := fun heq =>
      head?_body_ne (c := 'i') (by decide) (by decide) (by decide) code (by rw [heq]; rfl)
    rw [result_finite, ofPrinted_signText negative hminus, ofUnsigned, if_neg hword,
      ofRat_textValue_body]

/-! ## From the text back through the calculator -/

/-- A magnitude is an integer or at least `0.0001`. -/
def IsPlain (code : Fin infinityCode) : Prop :=
  magnitude code % unitsPerOne = 0 ∨ unitsPerOne ≤ 10 ^ 4 * magnitude code

/-- An integer, and a fraction that is not too small, is written as a number literal is. -/
theorem body_isLexeme {code : Fin infinityCode} (h : IsPlain code) :
    Lexeme .bare (body code) ∧ ∃ c tail, body code = c :: tail ∧ c.isDigit = true := by
  have hfirst : ∀ {ds : List Char}, AllDigits .bare ds → ds ≠ [] → ∀ more,
      ∃ c tail, ds ++ more = c :: tail ∧ c.isDigit = true := by
    intro ds hds hne more
    obtain ⟨c, rest, rfl⟩ := List.exists_cons_of_ne_nil hne
    exact ⟨c, rest ++ more, rfl, hds c List.mem_cons_self⟩
  unfold body
  split
  case isTrue =>
    have hdigits := allDigits_toDigits (magnitude code / unitsPerOne)
    obtain ⟨c, tail, heq, hc⟩ := hfirst hdigits Nat.toDigits_ne_nil []
    rw [List.append_nil] at heq
    exact ⟨.digits hdigits, c, tail, heq, hc⟩
  case isFalse hfraction =>
    obtain ⟨hlow, hhigh⟩ := point_shortest_mem (h.resolve_left hfraction)
      (magnitude_lt_of_mod_ne_zero hfraction)
    have hlayout : (shortest code).layout .standard =
        positional (shortest code).significant (shortest code).point :=
      if_pos (by simp [PlaceRange.standard, hlow, hhigh])
    obtain ⟨whole, fraction, htext, hne, hwhole, hbehind, -⟩ :=
      exists_positional (shortest code).allDigits_significant (shortest code).point
    rw [hlayout, htext]
    exact ⟨.point rfl hwhole hbehind, hfirst hwhole hne _⟩

/-- The value of the text of a magnitude, as a number literal, is the magnitude. -/
theorem value?_body {code : Fin infinityCode} (h : IsPlain code) :
    value? .bare (body code) = some (finite false code) := by
  obtain ⟨hlexeme, c, tail, hbody, hc⟩ := body_isLexeme h
  have hdigit : HasDigit .bare (body code) := ⟨c, hbody ▸ List.mem_cons_self, hc⟩
  have hdenoted : denoted 10 (body code) = textValue (body code) :=
    (textValue_eq_denoted hlexeme).symm
  rcases value?_of_hasPoint hlexeme rfl with ⟨-, hvalue⟩ | ⟨hnone, -⟩
  · rw [hvalue]
    exact congrArg some (hdenoted ▸ ofRat_textValue_body false code)
  · exact absurd hdigit hnone

theorem isPlain_of_toRat? {negative : Bool} {code : Fin infinityCode} {v : ℚ}
    (hv : (finite negative code).toRat? = some v) (h : (∃ n : Int, v = n) ∨ 1 / 10000 ≤ |v|) :
    IsPlain code := by
  rw [toRat?_finite] at hv
  obtain rfl := Option.some.inj hv
  have hunits := unitsPerOne_rat_pos
  have habs : |signedRat negative ((magnitude code : ℚ) / unitsPerOne)| =
      (magnitude code : ℚ) / unitsPerOne := by
    rw [abs_signedRat, abs_of_nonneg (magnitude_div_nonneg _)]
  rcases h with ⟨n, hn⟩ | hlarge
  · left
    rw [hn, ← Int.cast_abs, ← Int.natCast_natAbs, Int.cast_natCast,
      eq_div_iff (ne_of_gt hunits), ← Nat.cast_mul, Nat.cast_inj] at habs
    rw [← habs]
    exact Nat.mul_mod_left _ _
  · right
    rw [habs, div_le_div_iff₀ (by norm_num) hunits, one_mul] at hlarge
    have hcast : ((unitsPerOne : Nat) : ℚ) ≤ ((10 ^ 4 * magnitude code : Nat) : ℚ) := by
      rw [Nat.cast_mul, mul_comm]
      exact_mod_cast hlarge
    exact Nat.cast_le.1 hcast

end Binary64

/-- **Printed results lose nothing.**  Numbers with different bits are printed as different
texts, not-a-number apart.  A finite number that is an integer, or at least `0.0001` in
magnitude, is printed as a line that is accepted, without a report, and that comes to the number
in whatever scope it is run. -/
theorem printed_results_lose_nothing :
    (∀ x y : Binary64, x ≠ .nan → y ≠ .nan → x.toBits ≠ y.toBits → x.result ≠ y.result) ∧
    ∀ (x : Binary64) (v : ℚ), x.toRat? = some v → ((∃ n : Int, v = n) ∨ 1 / 10000 ≤ |v|) →
      ∃ e, (parse (String.ofList x.result)).Accepts (.expression e) ∧
        ∀ s : Scope, (s.run e).outcome = .ok x := by
  constructor
  · intro x y hx hy hbits htext
    refine hbits (congrArg Binary64.toBits ?_)
    rw [← Binary64.ofPrinted_result hx, htext, Binary64.ofPrinted_result hy]
  · intro x v hv hplain
    obtain ⟨negative, code, rfl, -⟩ := Binary64.exists_of_toRat? hv
    have hcode := Binary64.isPlain_of_toRat? hv hplain
    obtain ⟨hlexeme, hfirst⟩ := Binary64.body_isLexeme hcode
    rw [Binary64.result_finite]
    exact parse_signed negative hlexeme hfirst (Binary64.value?_body hcode)

/-- The two zeros are told apart, and the negative one is read back, as a fraction is. -/
theorem printed_results_lose_no_zero :
    (Binary64.zero true).result ≠ (Binary64.zero false).result ∧
    (∃ e, (parse "-0").Accepts (.expression e) ∧
      ∀ s : Scope, (s.run e).outcome = .ok (.zero true)) ∧
    ∃ e, (parse "2.5").Accepts (.expression e) ∧
      ∀ s : Scope, (s.run e).outcome = .ok (.finite false ⟨0x4004000000000000, by decide⟩) := by
  obtain ⟨hapart, hback⟩ := printed_results_lose_nothing
  have hzero : (Binary64.zero true).toRat? = some 0 := by
    rw [Binary64.zero, Binary64.toRat?_finite, Binary64.magnitude_zero, Nat.cast_zero, zero_div,
      Binary64.signedRat_true, neg_zero]
  have hhalf : (Binary64.finite false ⟨0x4004000000000000, by decide⟩).toRat? = some (5 / 2) := by
    have hunits : Binary64.magnitude 0x4004000000000000 * 2 = 5 * Binary64.unitsPerOne := by
      decide +kernel
    have hcast : (Binary64.magnitude 0x4004000000000000 : ℚ) * 2 = 5 * Binary64.unitsPerOne := by
      generalize Binary64.unitsPerOne = units at hunits ⊢
      exact_mod_cast hunits
    rw [Binary64.toRat?_finite, Binary64.signedRat_false]
    exact congrArg some
      ((div_eq_div_iff (ne_of_gt Binary64.unitsPerOne_rat_pos) (by norm_num)).2 hcast)
  have htext : String.ofList (Binary64.zero true).result = "-0" := by decide +kernel
  have htext' : String.ofList (Binary64.finite false ⟨0x4004000000000000, by decide⟩).result =
      "2.5" := by decide +kernel
  refine ⟨hapart _ _ (by decide) (by decide) (by decide), ?_, ?_⟩
  · rw [← htext]
    exact hback _ 0 hzero (Or.inl ⟨0, by norm_num⟩)
  · rw [← htext']
    exact hback _ _ hhalf (Or.inr (by norm_num))

end LineCalculator
