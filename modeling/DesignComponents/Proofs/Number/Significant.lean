import DesignComponents.Proofs.Number.Grid

/-!
The significant digits of a quotient are those of the nearest decimal with so many digits.
-/

namespace DesignComponents

variable {n d count : ℕ}

theorem scaleTen_snd_pos (hd : 0 < d) (e : ℤ) : 0 < (scaleTen n d e).2 := by
  cases e with
  | ofNat k => exact hd
  | negSucc k => exact Nat.mul_pos hd (Nat.pow_pos (by decide))

theorem scaleTen_div (n d : ℕ) (e : ℤ) :
    ((scaleTen n d e).1 : ℚ) / (scaleTen n d e).2 = n / d * 10 ^ e := by
  cases e with
  | ofNat k =>
    simp only [scaleTen, Nat.pow_eq, Int.ofNat_eq_natCast, zpow_natCast]
    push_cast
    ring
  | negSucc k =>
    simp only [scaleTen, Nat.pow_eq, zpow_negSucc]
    push_cast
    field_simp

theorem pow_digitCount_le (hn : n ≠ 0) : 10 ^ digitCount n ≤ 10 * n := by
  fun_induction digitCount n with
  | case1 => exact absurd rfl hn
  | case2 n _ ih =>
    by_cases hrest : n / 10 = 0
    · rw [hrest, digitCount_zero]
      omega
    · have hstep := ih hrest
      rw [pow_succ]
      omega

theorem digitCount_eq (hlow : 10 ^ count ≤ n) (hhigh : n < 10 ^ (count + 1)) :
    digitCount n = count + 1 := by
  have hn : n ≠ 0 := (lt_of_lt_of_le (Nat.pow_pos (by decide)) hlow).ne'
  have hmore : 10 ^ count < 10 ^ digitCount n := hlow.trans_lt (lt_pow_digitCount n)
  have hless : 10 ^ digitCount n < 10 ^ (count + 2) := by
    refine (pow_digitCount_le hn).trans_lt ?_
    rw [pow_succ 10 (count + 1)]
    omega
  rw [Nat.pow_lt_pow_iff_right (by decide)] at hmore hless
  omega

/-- A quotient has its first digit at the place that its exponent says. -/
theorem decimalExponent_bounds (hn : n ≠ 0) (hd : d ≠ 0) :
    (10 : ℚ) ^ decimalExponent n d ≤ n / d ∧ (n : ℚ) / d < 10 ^ (decimalExponent n d + 1) := by
  have hn' : (0 : ℚ) < n := by exact_mod_cast Nat.pos_of_ne_zero hn
  have hd' : (0 : ℚ) < d := by exact_mod_cast Nat.pos_of_ne_zero hd
  have hcount (k : ℕ) (hk : k ≠ 0) : (10 : ℚ) ^ ((digitCount k : ℤ) - 1) ≤ k := by
    rw [zpow_sub_one₀ (by norm_num), zpow_natCast, ← div_eq_mul_inv, div_le_iff₀' (by norm_num)]
    exact_mod_cast pow_digitCount_le hk
  have hlt (k : ℕ) : k + 1 ≤ (10 : ℚ) ^ (digitCount k : ℤ) := by
    rw [zpow_natCast]
    exact_mod_cast lt_pow_digitCount k
  unfold decimalExponent
  split
  case isTrue hle =>
    rw [sub_add_cancel]
    have hfloor : ((n / d : ℕ) : ℚ) ≤ n / d := Nat.cast_div_le
    have hceil : (n : ℚ) / d < (n / d : ℕ) + 1 := by
      rw [div_lt_iff₀ hd']
      exact_mod_cast Nat.lt_mul_of_div_lt (Nat.lt_succ_self _) (Nat.pos_of_ne_zero hd)
    exact ⟨(hcount _ (Nat.div_pos hle (Nat.pos_of_ne_zero hd)).ne').trans hfloor,
      hceil.trans_le (hlt _)⟩
  case isFalse hgt =>
    have hquot : (d - 1) / n ≠ 0 := (Nat.div_pos (by omega) (Nat.pos_of_ne_zero hn)).ne'
    have hfloor : ((d - 1) / n : ℕ) * (n : ℚ) < d := by
      have hmul := Nat.div_mul_le_self (d - 1) n
      have hnat : (d - 1) / n * n < d := by omega
      exact_mod_cast hnat
    have hceil : (d : ℚ) ≤ (((d - 1) / n : ℕ) + 1) * n := by
      have hnat : d - 1 < ((d - 1) / n + 1) * n :=
        Nat.lt_mul_of_div_lt (Nat.lt_succ_self _) (Nat.pos_of_ne_zero hn)
      exact_mod_cast (by omega : d ≤ ((d - 1) / n + 1) * n)
    constructor
    · rw [zpow_neg, le_div_iff₀ hd', ← div_eq_inv_mul, div_le_iff₀' (by positivity)]
      exact hceil.trans (mul_le_mul_of_nonneg_right (hlt _) hn'.le)
    · rw [neg_add_eq_sub, ← neg_sub, zpow_neg, div_lt_iff₀ hd', ← div_eq_inv_mul,
        lt_div_iff₀ (by positivity), mul_comm]
      exact (mul_le_mul_of_nonneg_right (hcount _ hquot) hn'.le).trans_lt hfloor

namespace Decimal

/-- The point is behind the first digit. -/
def value (x : Decimal) : ℚ := x.digits * 10 ^ (x.exponent + 1 - digitCount x.digits)

theorem value_eq {x : Decimal} (hlow : 10 ^ count ≤ x.digits) (hhigh : x.digits < 10 ^ (count + 1)) :
    x.value = x.digits * 10 ^ (x.exponent - count) := by
  rw [value, digitCount_eq hlow hhigh]
  congr 2
  push_cast
  ring

/-- The first `count + 1` digits of a quotient as a whole number, rounded. -/
def leadingDigits (count n d : ℕ) : ℕ :=
  roundDiv (scaleTen n d (count - decimalExponent n d)).1
    (scaleTen n d (count - decimalExponent n d)).2

theorem leadingDigits_near (count : ℕ) (hd : d ≠ 0) :
    |(leadingDigits count n d : ℚ) - n / d / 10 ^ (decimalExponent n d - count)| ≤ 1 / 2 := by
  have hpos := scaleTen_snd_pos (n := n) (Nat.pos_of_ne_zero hd) (count - decimalExponent n d)
  have hnear := roundDiv_near (n := (scaleTen n d (count - decimalExponent n d)).1) hpos
  have hunit : (10 : ℚ) ^ ((count : ℤ) - decimalExponent n d) =
      (10 ^ (decimalExponent n d - count))⁻¹ := by
    rw [← zpow_neg, neg_sub]
  rwa [scaleTen_div, hunit, ← div_eq_mul_inv] at hnear

/-- So many digits are before the point if the last one has the place of units. -/
theorem pow_le_of_decimalExponent (count : ℕ) (hn : n ≠ 0) (hd : d ≠ 0) :
    (10 : ℚ) ^ count * 10 ^ (decimalExponent n d - count) ≤ n / d := by
  rw [← zpow_natCast, ← zpow_add₀ (by norm_num), add_sub_cancel]
  exact (decimalExponent_bounds hn hd).1

theorem leadingDigits_bounds (count : ℕ) (hn : n ≠ 0) (hd : d ≠ 0) :
    10 ^ count ≤ leadingDigits count n d ∧ leadingDigits count n d ≤ 10 ^ (count + 1) := by
  have hunit : (0 : ℚ) < 10 ^ (decimalExponent n d - count) := by positivity
  obtain ⟨hless, hmore⟩ := abs_sub_le_iff.1 (leadingDigits_near (n := n) count hd)
  have hlow := (le_div_iff₀ hunit).2 (pow_le_of_decimalExponent count hn hd)
  have hhigh : (n : ℚ) / d / 10 ^ (decimalExponent n d - count) < 10 ^ (count + 1) := by
    rw [div_lt_iff₀ hunit, ← zpow_natCast, ← zpow_add₀ (by norm_num)]
    refine (decimalExponent_bounds hn hd).2.trans_eq ?_
    congr 1
    push_cast
    ring
  constructor
  · have hlt : ((10 ^ count : ℕ) : ℚ) < ((leadingDigits count n d + 1 : ℕ) : ℚ) := by
      push_cast
      linarith
    exact Nat.lt_succ_iff.1 (by exact_mod_cast hlt)
  · have hlt : (leadingDigits count n d : ℚ) < ((10 ^ (count + 1) + 1 : ℕ) : ℚ) := by
      push_cast
      linarith
    exact Nat.lt_succ_iff.1 (by exact_mod_cast hlt)

theorem significant_eq (count n d : ℕ) : significant (count + 1) n d =
    if leadingDigits count n d = 10 ^ (count + 1) then ⟨10 ^ count, decimalExponent n d + 1⟩
    else ⟨leadingDigits count n d, decimalExponent n d⟩ := by
  have hscale : ((count + 1 : ℕ) : ℤ) - 1 - decimalExponent n d = count - decimalExponent n d := by
    push_cast
    ring
  have hround : roundDiv (scaleTen n d (count - decimalExponent n d)).1
      (scaleTen n d (count - decimalExponent n d)).2 = leadingDigits count n d := rfl
  simp only [significant, hscale, hround, Nat.pow_eq]
  split
  case isTrue h => rw [h, pow_succ, Nat.mul_div_cancel _ (by decide)]
  case isFalse => rfl

theorem significant_digits_bounds (count : ℕ) (hn : n ≠ 0) (hd : d ≠ 0) :
    10 ^ count ≤ (significant (count + 1) n d).digits ∧
      (significant (count + 1) n d).digits < 10 ^ (count + 1) := by
  obtain ⟨hlow, hhigh⟩ := leadingDigits_bounds count hn hd
  rw [significant_eq]
  split
  case isTrue => exact ⟨le_rfl, Nat.pow_lt_pow_right (by decide) (Nat.lt_succ_self _)⟩
  case isFalse h => exact ⟨hlow, lt_of_le_of_ne hhigh h⟩

theorem significant_value (count : ℕ) (hn : n ≠ 0) (hd : d ≠ 0) :
    (significant (count + 1) n d).value =
      leadingDigits count n d * 10 ^ (decimalExponent n d - count) := by
  obtain ⟨hlow, hhigh⟩ := significant_digits_bounds count hn hd
  rw [value_eq hlow hhigh, significant_eq]
  split
  case isTrue h =>
    rw [h, add_sub_right_comm, zpow_add_one₀ (by norm_num), pow_succ]
    push_cast
    ring
  case isFalse => rfl

theorem significant_nearest (count : ℕ) (hn : n ≠ 0) (hd : d ≠ 0) :
    IsNearest (HasDigits 10 (count + 1)) (n / d) (significant (count + 1) n d).value where
  mem := by
    obtain ⟨hlow, hhigh⟩ := significant_digits_bounds count hn hd
    exact ⟨(significant (count + 1) n d).digits, _, by simpa using hhigh,
      by exact_mod_cast value_eq hlow hhigh⟩
  near := by
    rw [significant_value count hn hd]
    rintro _ ⟨m, i, hm, rfl⟩
    refine near_of_digits (k := leadingDigits count n d) (by decide : 1 < 10) ?_ hm (.inr ?_)
    · exact_mod_cast leadingDigits_near count hd
    · exact_mod_cast pow_le_of_decimalExponent count hn hd

end Decimal

end DesignComponents
