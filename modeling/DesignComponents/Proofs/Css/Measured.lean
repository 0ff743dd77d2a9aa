import DesignComponents.Css.Measure
import DesignComponents.Proofs.Number.Numeral
import DesignComponents.Proofs.Number.Whole

/-!
Lengths, read back: a number is rounded to two places, and the text has six digits of that. Numbers
with more digits are not in their texts.
-/

namespace DesignComponents

variable {q r : ℚ} {n d places : ℕ}

/-- The number rounded to so many decimal places, a tie going to the even digit. -/
def IsPlaces (places : ℕ) (q r : ℚ) : Prop :=
  ∃ k : ℤ, r = k / 10 ^ places ∧ |k - q * 10 ^ places| ≤ 1 / 2 ∧
    (|k - q * 10 ^ places| = 1 / 2 → k % 2 = 0)

theorem isPlaces_intCast (places : ℕ) (k : ℤ) : IsPlaces places k k := by
  have hpow : (10 : ℚ) ^ places ≠ 0 := by positivity
  refine ⟨k * 10 ^ places, ?_, ?_⟩
  · push_cast
    rw [mul_div_cancel_right₀ _ hpow]
  · push_cast
    rw [sub_self, abs_zero]
    norm_num

theorem IsPlaces.neg (h : IsPlaces places q r) : IsPlaces places (-q) (-r) := by
  obtain ⟨k, rfl, hnear, htie⟩ := h
  refine ⟨-k, by push_cast; rw [neg_div], ?_⟩
  have hsame : |((-k : ℤ) : ℚ) - -q * 10 ^ places| = |k - q * 10 ^ places| := by
    rw [Int.cast_neg, neg_mul, neg_sub_neg, abs_sub_comm]
  rw [hsame]
  exact ⟨hnear, fun h => by have := htie h; omega⟩

theorem IsPlaces.near (h : IsPlaces places q r) : |r - q| ≤ 1 / 2 / 10 ^ places := by
  obtain ⟨k, rfl, hnear, -⟩ := h
  have hpow : (0 : ℚ) < 10 ^ places := by positivity
  rw [le_div_iff₀ hpow]
  refine le_of_eq_of_le ?_ hnear
  rw [← abs_of_pos hpow, ← abs_mul, abs_of_pos hpow, sub_mul, div_mul_cancel₀ _ hpow.ne']

/-- No place is left for a number that is not zero but smaller. -/
theorem IsPlaces.le_abs (h : IsPlaces places q r) (hr : r ≠ 0) : 1 / 10 ^ places ≤ |r| := by
  obtain ⟨k, rfl, -⟩ := h
  have hk : k ≠ 0 := by
    rintro rfl
    simp at hr
  have hone : (1 : ℚ) ≤ |(k : ℚ)| := by exact_mod_cast Int.one_le_abs hk
  have hpow : (0 : ℚ) < 10 ^ places := by positivity
  rw [abs_div, abs_of_pos hpow]
  gcongr

theorem roundDiv_even_of_tie (hd : 0 < d) (h : |(roundDiv n d : ℚ) - n / d| = 1 / 2) :
    roundDiv n d % 2 = 0 := by
  have hd' : (d : ℚ) ≠ 0 := by exact_mod_cast hd.ne'
  have htie : 2 * roundDiv n d * d = 2 * n + d ∨ 2 * roundDiv n d * d + d = 2 * n := by
    rcases (abs_eq (by norm_num)).1 h with h | h
    · left
      field_simp at h
      have : (2 * roundDiv n d * d : ℚ) = 2 * n + d := by linarith
      exact_mod_cast this
    · right
      field_simp at h
      have : (2 * roundDiv n d * d + d : ℚ) = 2 * n := by linarith
      exact_mod_cast this
  have hdiv := Nat.div_add_mod n d
  have hlt := Nat.mod_lt n hd
  unfold roundDiv at htie ⊢
  generalize n / d = q at *
  generalize n % d = r at *
  subst hdiv
  split at htie
  case isTrue => exfalso; rcases htie with h | h <;> nlinarith
  case isFalse =>
    split at htie
    case isTrue => exfalso; rcases htie with h | h <;> nlinarith
    case isFalse =>
      rw [if_neg ‹_›, if_neg ‹_›]
      split <;> omega

namespace Double

theorem isPlaces_roundDiv (places : ℕ) (hd : 0 < d) :
    IsPlaces places (n / d) ((roundDiv (n * 10 ^ places) d : ℕ) / (10 ^ places : ℕ)) := by
  have hratio : (n : ℚ) / d * 10 ^ places = ((n * 10 ^ places : ℕ) : ℚ) / d := by
    push_cast
    rw [div_mul_eq_mul_div]
  refine ⟨roundDiv (n * 10 ^ places) d, by push_cast; rfl, ?_⟩
  rw [hratio, Int.cast_natCast]
  exact ⟨roundDiv_near hd, fun h => by exact_mod_cast roundDiv_even_of_tie hd h⟩

/-- Rounding to places is followed by rounding to a double. -/
theorem roundPlaces_rounded {x : Double} (places : ℕ) (hx : x.value? = some q)
    (hq : |q| + 1 ≤ overflow) : ∃ r y e, IsPlaces places q r ∧
      (x.roundPlaces places).value? = some y ∧ IsRounded r y e := by
  obtain ⟨s, m, e, rfl, rfl⟩ := exists_of_value? hx
  have hplaces := isPlaces_roundDiv (n := (magnitude m e).1) places (magnitude_snd_pos m e)
  rw [magnitude_div] at hplaces
  have hsmall : ((roundDiv ((magnitude m e).1 * 10 ^ places) (magnitude m e).2 : ℕ) : ℚ) /
      (10 ^ places : ℕ) < overflow := by
    have hstep : (1 : ℚ) / 2 / 10 ^ places ≤ 1 / 2 :=
      div_le_self (by norm_num) (one_le_pow₀ (by norm_num))
    rw [abs_signed] at hq
    linarith [(abs_sub_le_iff.1 hplaces.near).1, le_abs_self (magnitudeValue m e)]
  obtain ⟨y, i, hy, hrounded⟩ := ofRatio_rounded s (Nat.pow_pos (by decide)).ne' hsmall
  refine ⟨_, y, i, ?_, hy, hrounded⟩
  cases s with
  | false => exact hplaces
  | true => exact hplaces.neg

end Double

/-- A whole number that is not too large, or one that a double holds. -/
def Number.Holds : Number → ℚ → Prop
  | .int k, q => q = k ∧ k.natAbs < Double.overflow
  | .double x, q => x.value? = some q ∧ Double.IsValue q

namespace Number.Holds

variable {x : Number}

theorem value? (h : x.Holds q) : x.value? = some q := by
  cases x with
  | int k => exact congrArg some h.1.symm
  | double x => exact h.1

/-- What a double may hold is not changed when it becomes one. -/
theorem toDouble? (h : x.Holds q) (hq : Double.IsValue q) :
    ∃ y, x.toDouble? = some y ∧ y.value? = some q := by
  cases x with
  | int k =>
    obtain ⟨rfl, hk⟩ := h
    obtain ⟨y, r, e, hy, hvalue, hrounded⟩ := Double.ofInt?_rounded hk
    obtain rfl := hrounded.nearest.eq hq
    exact ⟨y, hy, hvalue⟩
  | double x => exact ⟨x, rfl, h.1⟩

end Number.Holds

namespace Css

/-- From a number to what its text says: rounded to two places, held as a double, and cut to six
digits. -/
structure IsReading (q r y d : ℚ) : Prop where
  places : IsPlaces 2 q r
  held : IsNearest Double.IsValue r y
  cut : IsNearest (HasDigits 10 6) y d
  exact : d = r ↔ HasDigits 10 6 r

/-- Six digits are too few to tell a double from the number it was rounded from. -/
theorem eq_of_hasDigits {y d : ℚ} {e : ℤ} (hplaces : IsPlaces 2 q r) (hy : Double.IsRounded r y e)
    (hd : IsNearest (HasDigits 10 6) y d) (hr : HasDigits 10 6 r) : d = r := by
  by_contra hne
  have hcut : |d - y| ≤ |r - y| := hd.near r hr
  have hzero : r ≠ 0 := by
    rintro rfl
    rw [hy.nearest.eq Double.isValue_zero] at hd
    exact hne (hd.eq hr)
  have hfine : |y - r| * 2 ^ 53 ≤ |r| := by
    refine hy.relative (le_trans ?_ (hplaces.le_abs hzero))
    calc
      (2 : ℚ) ^ (Double.minExponent + 52) ≤ 2 ^ (-7 : ℤ) :=
        zpow_le_zpow_right₀ (by norm_num) (by decide)
      _ ≤ 1 / 10 ^ 2 := by norm_num
  have hfar := hr.abs_lt_of_ne (by decide) hd.mem (Ne.symm hne)
  have htriangle : |r - d| ≤ |y - r| + |d - y| := by
    rw [abs_sub_comm y, abs_sub_comm d]
    exact abs_sub_le _ _ _
  rw [abs_sub_comm r y] at hcut
  norm_num at hfar hfine
  linarith [abs_nonneg (y - r)]

theorem rounded_near {n : Number} (h : n.Holds q) : ∃ x r y e, rounded n = .ok x ∧
    x.value? = some y ∧ IsPlaces 2 q r ∧ Double.IsRounded r y e := by
  cases n with
  | int k =>
    obtain ⟨rfl, hk⟩ := h
    obtain ⟨x, y, e, hx, hy, hrounded⟩ := Double.ofInt?_rounded hk
    exact ⟨x, k, y, e, by rw [rounded, hx], hy, isPlaces_intCast 2 k, hrounded⟩
  | double x =>
    obtain ⟨hx, hvalue⟩ := h
    obtain ⟨r, y, e, hplaces, hy, hrounded⟩ :=
      Double.roundPlaces_rounded 2 hx hvalue.abs_add_one_le
    exact ⟨_, r, y, e, rfl, hy, hplaces, hrounded⟩

theorem measure_reads {n : Number} (h : n.Holds q) : ∃ (x : Double) (r y d : ℚ),
    measure (.num n) = .ok x.measureText ∧ Numeral.value? x.measureText.toList = some d ∧
      IsReading q r y d := by
  obtain ⟨x, r, y, e, hx, hy, hplaces, hrounded⟩ := rounded_near h
  obtain ⟨d, hread, hcut⟩ := Double.measureText_nearest hy
  refine ⟨x, r, y, d, ?_, hread, hplaces, hrounded.nearest, hcut, ?_, ?_⟩
  · simp only [measure, Json.number?, hx]
    rfl
  · rintro rfl
    exact hcut.mem
  · exact eq_of_hasDigits hplaces hrounded hcut

/-- A length says its number rounded to two places if six digits are enough for that, and else the
nearest number of six digits. -/
theorem length_reads {n : Number} (h : n.Holds q) :
    ∃ text r y d, length (.num n) = .ok (text ++ "px") ∧
      Numeral.value? text.toList = some d ∧ IsReading q r y d := by
  obtain ⟨x, r, y, d, htext, hread, hreading⟩ := measure_reads h
  exact ⟨x.measureText, r, y, d, by rw [length, htext]; rfl, hread, hreading⟩

theorem length_reads_eighths : (Number.double (.finite false 65 (-3))).Holds (65 / 8) ∧
    ∃ text r y d, length (.num (.double (.finite false 65 (-3)))) = .ok (text ++ "px") ∧
      Numeral.value? text.toList = some d ∧ IsReading (65 / 8) r y d := by
  have hvalue : (65 : ℚ) / 8 = (65 : ℤ) * 2 ^ (-3 : ℤ) := by norm_num
  have hholds : (Number.double (.finite false 65 (-3))).Holds (65 / 8) := by
    refine ⟨?_, 65, -3, by decide, by decide, by decide, hvalue⟩
    rw [Double.value?_finite, hvalue]
    simp [Double.signed, Double.magnitudeValue]
  exact ⟨hholds, length_reads hholds⟩

/-- Seven digits do not fit. -/
theorem length_loses_digits : ¬ ∀ (n : Number) (q r : ℚ), n.Holds q → IsPlaces 2 q r →
    ∃ text, length (.num n) = .ok (text ++ "px") ∧ Numeral.value? text.toList = some r := by
  intro hall
  have hholds : (Number.int 1234567).Holds ((1234567 : ℤ) : ℚ) := ⟨rfl, by decide +kernel⟩
  obtain ⟨text, hlength, hread⟩ := hall _ _ _ hholds (isPlaces_intCast 2 1234567)
  obtain ⟨x, hx, hmeasure⟩ : ∃ x, Double.ofInt? 1234567 = some x ∧ x.measureText = "1.23457e+06" :=
    ⟨.finite false (1234567 * 2 ^ 32) (-32), rfl, by decide +kernel⟩
  have htext : length (.num (.int 1234567)) = .ok (x.measureText ++ "px") := by
    simp only [length, measure, Json.number?, rounded, hx]
    rfl
  rw [htext, Except.ok.injEq, String.append_left_inj, hmeasure] at hlength
  obtain rfl := hlength
  have hcut : Numeral.value? "1.23457e+06".toList = some 1234570 := by decide +kernel
  rw [hcut] at hread
  norm_num at hread

end Css

end DesignComponents
