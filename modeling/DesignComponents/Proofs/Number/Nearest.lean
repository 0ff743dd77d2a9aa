import DesignComponents.Proofs.Number.Grid

/-!
Quotients as doubles: those below a bound are rounded to the nearest double there is, and all others
are too large.
-/

namespace DesignComponents.Double

/-- The value of a double: 53 binary digits at most, and an exponent in its range. -/
def IsValue (q : ℚ) : Prop :=
  ∃ m e : ℤ, m.natAbs < 2 ^ 53 ∧ minExponent ≤ e ∧ e ≤ maxExponent ∧ q = m * 2 ^ e

/-- The least whole number that the greatest double is not nearest to. -/
def overflow : Nat := (2 ^ 54 - 1) * 2 ^ 970

/-- The exponent of the last of 53 binary digits, or the least exponent. -/
structure IsLastPlace (q : ℚ) (e : ℤ) : Prop where
  least : minExponent ≤ e
  below : q < 2 ^ 53 * 2 ^ e
  above : e = minExponent ∨ 2 ^ 52 * 2 ^ e ≤ q

variable {n d m : ℕ} {e : ℤ} {q r : ℚ}

theorem IsValue.neg (h : IsValue q) : IsValue (-q) := by
  obtain ⟨m, e, hm, hlow, hhigh, rfl⟩ := h
  exact ⟨-m, e, by rwa [Int.natAbs_neg], hlow, hhigh, by push_cast; ring⟩

theorem isValue_magnitudeValue (hm : m < 2 ^ 53) (hlow : minExponent ≤ e) (hhigh : e ≤ maxExponent) :
    IsValue (magnitudeValue m e) :=
  ⟨m, e, by simpa using hm, hlow, hhigh, rfl⟩

theorem isValue_intCast {k : ℤ} (hk : k.natAbs < 2 ^ 53) : IsValue k :=
  ⟨k, 0, hk, by decide, by decide, by simp⟩

theorem isValue_zero : IsValue 0 := by
  exact_mod_cast isValue_intCast (k := 0) (by decide)

theorem log2_bounds (hn : n ≠ 0) (hd : d ≠ 0) :
    (2 : ℚ) ^ ((n.log2 : ℤ) - d.log2 - 1) < n / d ∧
      (n : ℚ) / d < 2 ^ ((n.log2 : ℤ) - d.log2 + 1) := by
  have hd' : (0 : ℚ) < d := by exact_mod_cast Nat.pos_of_ne_zero hd
  have hlow (k : ℕ) (hk : k ≠ 0) : (2 : ℚ) ^ (k.log2 : ℤ) ≤ k := by
    exact_mod_cast Nat.log2_self_le hk
  have hhigh (k : ℕ) : (k : ℚ) < 2 ^ ((k.log2 : ℤ) + 1) := by
    exact_mod_cast Nat.lt_log2_self
  constructor
  · rw [lt_div_iff₀ hd']
    calc
      (2 : ℚ) ^ ((n.log2 : ℤ) - d.log2 - 1) * d
        < 2 ^ ((n.log2 : ℤ) - d.log2 - 1) * 2 ^ ((d.log2 : ℤ) + 1) := by gcongr; exact hhigh d
      _ = 2 ^ (n.log2 : ℤ) := by rw [← zpow_add₀ two_ne_zero]; congr 1; ring
      _ ≤ n := hlow n hn
  · rw [div_lt_iff₀ hd']
    calc
      (n : ℚ) < 2 ^ ((n.log2 : ℤ) + 1) := hhigh n
      _ = 2 ^ ((n.log2 : ℤ) - d.log2 + 1) * 2 ^ (d.log2 : ℤ) := by
        rw [← zpow_add₀ two_ne_zero]
        congr 1
        ring
      _ ≤ 2 ^ ((n.log2 : ℤ) - d.log2 + 1) * d := by gcongr; exact hlow d hd

theorem isLastPlace_exponentFor (hn : n ≠ 0) (hd : d ≠ 0) :
    IsLastPlace (n / d) (exponentFor n d) := by
  obtain ⟨hlow, hhigh⟩ := log2_bounds hn hd
  have hscale := scaleTwo_div n d (-((n.log2 : ℤ) - d.log2 - 52))
  have hpos : (0 : ℚ) < (scaleTwo n d (-((n.log2 : ℤ) - d.log2 - 52))).2 := by
    exact_mod_cast scaleTwo_snd_pos (Nat.pos_of_ne_zero hd) _
  have hexact : (n : ℚ) / d < 2 ^ 53 * 2 ^ ((n.log2 : ℤ) - d.log2 - 52) ∧
      2 ^ 52 * 2 ^ ((n.log2 : ℤ) - d.log2 - 52 - 1) ≤ (n : ℚ) / d := by
    constructor
    · refine hhigh.trans_eq ?_
      rw [← zpow_natCast (2 : ℚ) 53, ← zpow_add₀ two_ne_zero]
      congr 1
      push_cast
      ring
    · refine le_of_eq_of_le ?_ hlow.le
      rw [← zpow_natCast (2 : ℚ) 52, ← zpow_add₀ two_ne_zero]
      congr 1
      push_cast
      ring
  generalize hx : (n.log2 : ℤ) - d.log2 - 52 = x at hscale hpos hexact
  -- the guess may be one too large, which a comparison with the first digit shows
  have hless : (scaleTwo n d (-x)).1 < Nat.pow 2 52 * (scaleTwo n d (-x)).2 ↔
      (n : ℚ) / d < 2 ^ 52 * 2 ^ x := by
    rw [← Nat.cast_lt (α := ℚ), Nat.cast_mul, ← div_lt_iff₀ hpos, hscale, zpow_neg,
      ← div_eq_mul_inv, div_lt_iff₀ (by positivity)]
    norm_num [Nat.pow_eq]
  have hfor : exponentFor n d =
      max (if (n : ℚ) / d < 2 ^ 52 * 2 ^ x then x - 1 else x) minExponent := by
    simp only [exponentFor, hx, hless]
  obtain ⟨y, hy, hbelow, habove⟩ : ∃ y, exponentFor n d = max y minExponent ∧
      (n : ℚ) / d < 2 ^ 53 * 2 ^ y ∧ 2 ^ 52 * 2 ^ y ≤ (n : ℚ) / d := by
    split at hfor
    case isTrue hlt =>
      refine ⟨x - 1, hfor, hlt.trans_eq ?_, hexact.2⟩
      rw [zpow_sub_one₀ two_ne_zero]
      ring
    case isFalse hge => exact ⟨x, hfor, hexact.1, not_lt.1 hge⟩
  rw [hy]
  refine ⟨le_max_right _ _, hbelow.trans_le ?_, ?_⟩
  · gcongr
    · norm_num
    · exact le_max_left _ _
  · rcases le_total y minExponent with h | h
    · exact .inl (max_eq_right h)
    · rw [max_eq_left h]
      exact .inr habove

/-- The digits before the last place, or the next power of two. -/
def significand (n d : ℕ) : ℕ :=
  roundDiv (scaleTwo n d (-exponentFor n d)).1 (scaleTwo n d (-exponentFor n d)).2

theorem significand_near (hd : d ≠ 0) :
    |(significand n d : ℚ) - n / d / 2 ^ exponentFor n d| ≤ 1 / 2 := by
  have hpos := scaleTwo_snd_pos (n := n) (Nat.pos_of_ne_zero hd) (-exponentFor n d)
  have hnear := roundDiv_near (n := (scaleTwo n d (-exponentFor n d)).1) hpos
  rwa [scaleTwo_div, zpow_neg, ← div_eq_mul_inv] at hnear

theorem significand_le (hn : n ≠ 0) (hd : d ≠ 0) : significand n d ≤ 2 ^ 53 := by
  have hnear := (abs_sub_le_iff.1 (significand_near (n := n) hd)).1
  have hbelow := (isLastPlace_exponentFor hn hd).below
  rw [← div_lt_iff₀ (by positivity)] at hbelow
  have hlt : (significand n d : ℚ) < ((2 ^ 53 + 1 : ℕ) : ℚ) := by
    push_cast
    linarith
  exact Nat.lt_succ_iff.1 (by exact_mod_cast hlt)

theorem le_significand_iff (hm : m % 2 = 0) (hd : d ≠ 0) :
    m ≤ significand n d ↔ ((m : ℚ) - 1 / 2) * 2 ^ exponentFor n d ≤ n / d := by
  have hpos := scaleTwo_snd_pos (n := n) (Nat.pos_of_ne_zero hd) (-exponentFor n d)
  have hpos' : (0 : ℚ) < (scaleTwo n d (-exponentFor n d)).2 := by exact_mod_cast hpos
  rw [← le_div_iff₀ (by positivity), div_eq_mul_inv ((n : ℚ) / d), ← zpow_neg, ← scaleTwo_div,
    le_div_iff₀ hpos', significand, le_roundDiv_iff_of_even hm hpos, ← Nat.cast_le (α := ℚ)]
  push_cast
  constructor <;> intro h <;> linarith

theorem ofRatio_eq (negative : Bool) (hn : n ≠ 0) : ofRatio negative n d =
    if significand n d = 2 ^ 53 then
      if maxExponent < exponentFor n d + 1 then .infinite negative
      else .finite negative (2 ^ 52) (exponentFor n d + 1)
    else
      if maxExponent < exponentFor n d then .infinite negative
      else .finite negative (significand n d) (exponentFor n d) := by
  have hround : roundDiv (scaleTwo n d (-exponentFor n d)).1 (scaleTwo n d (-exponentFor n d)).2 =
      significand n d := rfl
  simp only [ofRatio, if_neg hn, hround, Nat.pow_eq]
  by_cases h : significand n d = 2 ^ 53
  · simp only [h, if_true]
  · simp only [h, if_false]

theorem overflow_eq : (overflow : ℚ) = (2 ^ 53 - 1 / 2) * 2 ^ maxExponent := by
  have hlast : (2 : ℚ) ^ maxExponent = 2 * 2 ^ 970 := by
    rw [maxExponent, zpow_ofNat, pow_succ, mul_comm]
  rw [overflow, hlast, Nat.cast_mul, Nat.cast_pow, Nat.cast_ofNat]
  generalize (2 : ℚ) ^ 970 = p
  norm_num
  ring

theorem IsValue.abs_add_one_le (h : IsValue q) : |q| + 1 ≤ overflow := by
  obtain ⟨m, e, hm, -, he, rfl⟩ := h
  have hunit : (0 : ℚ) < 2 ^ e := by positivity
  have hlast : (2 : ℚ) ^ e ≤ 2 ^ maxExponent := zpow_le_zpow_right₀ (by norm_num) he
  have hone : (2 : ℚ) ^ (1 : ℤ) ≤ 2 ^ maxExponent :=
    zpow_le_zpow_right₀ (by norm_num) (by decide : 1 ≤ maxExponent)
  rw [zpow_one] at hone
  have hm' : |(m : ℚ)| + 1 ≤ 2 ^ 53 := by
    rw [← natAbs_cast]
    exact_mod_cast hm
  rw [overflow_eq, abs_mul, abs_of_pos hunit]
  generalize (2 : ℚ) ^ maxExponent = last at *
  generalize (2 : ℚ) ^ e = unit at *
  calc
    |(m : ℚ)| * unit + 1 ≤ (2 ^ 53 - 1) * last + 1 := by
      gcongr
      linarith
    _ ≤ (2 ^ 53 - 1 / 2) * last := by linarith

/-- A number is too large if its last place is behind the last of all, or if it is rounded up to a
number with one digit more. -/
theorem overflow_le_iff (hn : n ≠ 0) (hd : d ≠ 0) : (overflow : ℚ) ≤ n / d ↔
    maxExponent < exponentFor n d ∨
      exponentFor n d = maxExponent ∧ significand n d = 2 ^ 53 := by
  have hplace := isLastPlace_exponentFor hn hd
  have hpos : (0 : ℚ) < 2 ^ maxExponent := by positivity
  have hnext : (2 : ℚ) ^ (maxExponent + 1) = 2 ^ maxExponent * 2 := zpow_add_one₀ two_ne_zero _
  rw [overflow_eq]
  rcases lt_trichotomy (exponentFor n d) maxExponent with he | he | he
  · have hunit : (2 : ℚ) ^ (exponentFor n d + 1) ≤ 2 ^ maxExponent :=
      zpow_le_zpow_right₀ (by norm_num) he
    rw [zpow_add_one₀ two_ne_zero] at hunit
    have hlt : (n : ℚ) / d < (2 ^ 53 - 1 / 2) * 2 ^ maxExponent := by
      linarith [hplace.below]
    simp only [hlt.not_ge, he.not_gt, he.ne, false_and, or_false]
  · have htop : significand n d = 2 ^ 53 ↔ 2 ^ 53 ≤ significand n d :=
      ⟨fun h => h.ge, fun h => le_antisymm (significand_le hn hd) h⟩
    rw [htop, le_significand_iff (by decide) hd, he]
    simp only [lt_irrefl, true_and, false_or, Nat.cast_pow, Nat.cast_ofNat]
  · have hunit : (2 : ℚ) ^ (maxExponent + 1) ≤ 2 ^ exponentFor n d :=
      zpow_le_zpow_right₀ (by norm_num) he
    have hleast : exponentFor n d ≠ minExponent := by
      simp only [minExponent, maxExponent] at he ⊢
      omega
    have habove := hplace.above.resolve_left hleast
    simp only [he, true_or, iff_true]
    linarith

theorem ofRatio_infinite (negative : Bool) (hd : d ≠ 0) (h : (overflow : ℚ) ≤ n / d) :
    ofRatio negative n d = .infinite negative := by
  have hn : n ≠ 0 := by
    rintro rfl
    rw [Nat.cast_zero, zero_div, overflow_eq] at h
    have : (0 : ℚ) < (2 ^ 53 - 1 / 2) * 2 ^ maxExponent := mul_pos (by norm_num) (by positivity)
    linarith
  rw [ofRatio_eq negative hn]
  rcases (overflow_le_iff hn hd).1 h with he | ⟨he, hm⟩
  · rw [if_pos he, if_pos (by omega : maxExponent < exponentFor n d + 1), ite_self]
  · rw [if_pos hm, if_pos (by omega)]

/-- The double nearest to `q`, off by half a unit of its last place at most. -/
structure IsRounded (q r : ℚ) (e : ℤ) : Prop where
  place : IsLastPlace |q| e
  half : |r - q| ≤ 2 ^ e / 2
  nearest : IsNearest IsValue q r

namespace IsRounded

theorem neg (h : IsRounded q r e) : IsRounded (-q) (-r) e where
  place := by
    rw [abs_neg]
    exact h.place
  half := by
    rw [← neg_add', abs_neg, ← sub_eq_add_neg]
    exact h.half
  nearest := h.nearest.neg fun _ => IsValue.neg

/-- What is not next to zero is off by no more than a unit of its 54th digit. -/
theorem relative (h : IsRounded q r e) (hq : 2 ^ (minExponent + 52) ≤ |q|) :
    |r - q| * 2 ^ 53 ≤ |q| := by
  have hunit : 2 ^ 52 * 2 ^ e ≤ |q| := by
    rcases h.place.above with rfl | habove
    · refine le_of_eq_of_le ?_ hq
      rw [zpow_add₀ two_ne_zero, mul_comm]
      norm_num
    · exact habove
  linarith [h.half]

/-- What is below a power of two is off by no more than half a unit of that power's last place. -/
theorem absolute {i : ℤ} (h : IsRounded q r e) (hi : minExponent ≤ i) (hq : |q| < 2 ^ 53 * 2 ^ i) :
    |r - q| ≤ 2 ^ i / 2 := by
  have hle : e ≤ i := by
    rcases h.place.above with rfl | habove
    · exact hi
    · have hlt : (2 : ℚ) ^ e < 2 ^ (i + 1) := by
        rw [zpow_add_one₀ two_ne_zero]
        linarith
      have := (zpow_lt_zpow_iff_right₀ (by norm_num : (1 : ℚ) < 2)).1 hlt
      omega
  calc
    |r - q| ≤ 2 ^ e / 2 := h.half
    _ ≤ 2 ^ i / 2 := by
      gcongr
      norm_num

end IsRounded

theorem isRounded_zero : IsRounded 0 0 minExponent where
  place := ⟨le_rfl, by rw [abs_zero]; positivity, .inl rfl⟩
  half := by
    rw [sub_self, abs_zero]
    positivity
  nearest := ⟨isValue_zero, by simp⟩

/-- What is not too large is rounded to the nearest double. -/
theorem ofRatio_finite (negative : Bool) (hd : d ≠ 0) (h : (n : ℚ) / d < overflow) :
    ∃ m e i, ofRatio negative n d = .finite negative m e ∧
      IsRounded (n / d) (magnitudeValue m e) i := by
  by_cases hn : n = 0
  · subst hn
    refine ⟨0, minExponent, minExponent, ofRatio_zero _ _, ?_⟩
    simpa [magnitudeValue] using isRounded_zero
  have hplace := isLastPlace_exponentFor hn hd
  have hnear := significand_near (n := n) hd
  have hsmall := mt (overflow_le_iff hn hd).2 h.not_ge
  rw [not_or, not_and, not_lt] at hsmall
  obtain ⟨m, e, heq, hm, hlow, hhigh, hvalue⟩ : ∃ m e, ofRatio negative n d = .finite negative m e ∧
      m < 2 ^ 53 ∧ minExponent ≤ e ∧ e ≤ maxExponent ∧
        magnitudeValue m e = significand n d * 2 ^ exponentFor n d := by
    have hleast := hplace.least
    rw [ofRatio_eq negative hn]
    split
    case isTrue hm =>
      -- one digit more, so the place before the last is the last
      have he : exponentFor n d ≠ maxExponent := fun he => hsmall.2 he hm
      refine ⟨2 ^ 52, exponentFor n d + 1, if_neg (by omega), by decide, by omega, by omega, ?_⟩
      rw [hm, magnitudeValue, zpow_add_one₀ two_ne_zero]
      norm_num
      ring
    case isFalse hm =>
      have hle := significand_le hn hd
      exact ⟨_, _, if_neg (not_lt.2 hsmall.1), lt_of_le_of_ne hle hm, hleast, hsmall.1, rfl⟩
  refine ⟨m, e, exponentFor n d, heq, by rwa [abs_of_nonneg (by positivity)], ?_, ?_, ?_⟩
  · have hunit : (0 : ℚ) < 2 ^ exponentFor n d := by positivity
    rw [hvalue]
    calc
      |(significand n d : ℚ) * 2 ^ exponentFor n d - n / d|
        = |(significand n d : ℚ) - n / d / 2 ^ exponentFor n d| * 2 ^ exponentFor n d := by
          rw [← abs_of_pos hunit, ← abs_mul, abs_of_pos hunit, sub_mul,
            div_mul_cancel₀ _ hunit.ne']
      _ ≤ 1 / 2 * 2 ^ exponentFor n d := by gcongr
      _ = 2 ^ exponentFor n d / 2 := by ring
  · exact isValue_magnitudeValue hm hlow hhigh
  · -- a double with a finer last place has its value below the first digit, or there is none
    rintro _ ⟨k, i, hk, hi, -, rfl⟩
    rw [hvalue]
    refine near_of_digits (k := significand n d) (by decide : 1 < 2) ?_ hk ?_
    · exact_mod_cast hnear
    · rcases hplace.above with he | he
      · exact .inl (he ▸ hi)
      · exact .inr (by exact_mod_cast he)

def signed (negative : Bool) (q : ℚ) : ℚ := if negative then -q else q

theorem abs_signed (negative : Bool) (q : ℚ) : |signed negative q| = |q| := by
  cases negative with
  | false => rfl
  | true => exact abs_neg q

/-- The same with a sign. -/
theorem ofRatio_rounded (negative : Bool) (hd : d ≠ 0) (h : (n : ℚ) / d < overflow) :
    ∃ r e, (ofRatio negative n d).value? = some r ∧ IsRounded (signed negative (n / d)) r e := by
  obtain ⟨m, e, i, heq, hrounded⟩ := ofRatio_finite negative hd h
  refine ⟨_, i, by rw [heq, value?], ?_⟩
  cases negative with
  | false => exact hrounded
  | true => exact hrounded.neg

theorem value?_finite (s : Bool) (m : ℕ) (e : ℤ) :
    (finite s m e).value? = some (signed s (magnitudeValue m e)) := rfl

theorem exists_of_value? {x : Double} (h : x.value? = some q) :
    ∃ s m e, x = .finite s m e ∧ q = signed s (magnitudeValue m e) := by
  cases x with
  | finite s m e => exact ⟨s, m, e, rfl, (Option.some.inj h).symm⟩
  | _ => cases h

/-- The product of two doubles is rounded once. -/
theorem mul_rounded {x y : Double} (hx : x.value? = some q) (hy : y.value? = some r)
    (h : |q * r| < overflow) : ∃ p e, (x.mul y).value? = some p ∧ IsRounded (q * r) p e := by
  obtain ⟨s, m, e, rfl, rfl⟩ := exists_of_value? hx
  obtain ⟨t, k, i, rfl, rfl⟩ := exists_of_value? hy
  have hvalue : ((magnitude (m * k) (e + i)).1 : ℚ) / (magnitude (m * k) (e + i)).2 =
      magnitudeValue m e * magnitudeValue k i := by
    rw [magnitude_div]
    simp only [magnitudeValue, zpow_add₀ (two_ne_zero' ℚ)]
    push_cast
    ring
  have hsign : signed s (magnitudeValue m e) * signed t (magnitudeValue k i) =
      signed (s != t) (magnitudeValue m e * magnitudeValue k i) := by
    cases s <;> cases t <;> simp [signed]
  have hsmall : ((magnitude (m * k) (e + i)).1 : ℚ) / (magnitude (m * k) (e + i)).2 < overflow := by
    rw [hsign, abs_signed] at h
    rw [hvalue]
    exact (le_abs_self _).trans_lt h
  rw [hsign, ← hvalue]
  exact ofRatio_rounded (s != t) (magnitude_snd_pos _ _).ne' hsmall

theorem roundInt?_near {x : Double} (h : x.value? = some q) :
    ∃ k : ℤ, x.roundInt? = some k ∧ |k - q| ≤ 1 / 2 := by
  obtain ⟨s, m, e, rfl, rfl⟩ := exists_of_value? h
  have hnear := roundDiv_near (n := (magnitude m e).1) (magnitude_snd_pos m e)
  have hround : (finite s m e).roundInt? = some (if s then
      -(roundDiv (magnitude m e).1 (magnitude m e).2 : ℤ)
    else roundDiv (magnitude m e).1 (magnitude m e).2) := rfl
  rw [magnitude_div] at hnear
  refine ⟨_, hround, ?_⟩
  cases s with
  | false => simpa [signed] using hnear
  | true =>
    rw [abs_sub_comm] at hnear
    simpa [signed, ← sub_eq_neg_add] using hnear

end DesignComponents.Double
