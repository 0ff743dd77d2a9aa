import DesignComponents.Proofs.Number.Significant
import DesignComponents.Proofs.Number.Nearest

/-!
Doubles in canonical form, where the significand has all digits that the exponent leaves to it:
those of one sign and one value are the same. What a quotient or a decimal is rounded to is
canonical, and depends on the value alone.
-/

namespace DesignComponents.Double

/-- The significand has 53 binary digits, or fewer if the exponent is the least. -/
def IsCanonical : Double → Prop
  | .finite _ m e =>
    m < 2 ^ 53 ∧ minExponent ≤ e ∧ e ≤ maxExponent ∧ (e = minExponent ∨ 2 ^ 52 ≤ m)
  | _ => True

variable {s : Bool} {n d m k n' d' : ℕ} {e i : ℤ} {q : ℚ}

theorem isCanonical_zero (s : Bool) : IsCanonical (zero s) :=
  ⟨by decide, le_rfl, by decide, .inl rfl⟩

theorem IsLastPlace.unique (h : IsLastPlace q e) (h' : IsLastPlace q i) : e = i := by
  have hle {e i : ℤ} (h : IsLastPlace q e) (h' : IsLastPlace q i) : e ≤ i := by
    rcases h.above with rfl | habove
    · exact h'.least
    · have hlt : (2 : ℚ) ^ e < 2 ^ (i + 1) := by
        rw [zpow_add_one₀ two_ne_zero]
        linarith [h'.below]
      have := (zpow_lt_zpow_iff_right₀ (by norm_num : (1 : ℚ) < 2)).1 hlt
      omega
  exact le_antisymm (hle h h') (hle h' h)

namespace IsCanonical

theorem isLastPlace (h : IsCanonical (.finite s m e)) : IsLastPlace (magnitudeValue m e) e := by
  obtain ⟨hm, hlow, -, hfull⟩ := h
  have hunit : (0 : ℚ) < 2 ^ e := by positivity
  refine ⟨hlow, ?_, hfull.imp_right fun hfull => ?_⟩
  · exact mul_lt_mul_of_pos_right (by exact_mod_cast hm) hunit
  · exact mul_le_mul_of_nonneg_right (by exact_mod_cast hfull) hunit.le

theorem isValue (h : IsCanonical (.finite s m e)) : IsValue (magnitudeValue m e) :=
  isValue_magnitudeValue h.1 h.2.1 h.2.2.1

/-- There is one canonical form for each value. -/
theorem eq_of_value (h : IsCanonical (.finite s m e)) (h' : IsCanonical (.finite s k i))
    (hvalue : magnitudeValue m e = magnitudeValue k i) :
    Double.finite s m e = .finite s k i := by
  obtain rfl : e = i := h.isLastPlace.unique (hvalue ▸ h'.isLastPlace)
  have hunit : (2 : ℚ) ^ e ≠ 0 := by positivity
  obtain rfl : m = k := by exact_mod_cast mul_right_cancel₀ hunit hvalue
  rfl

end IsCanonical

theorem ofRatio_canonical (s : Bool) (n : ℕ) (hd : d ≠ 0) : IsCanonical (ofRatio s n d) := by
  by_cases hn : n = 0
  · rw [hn, ofRatio_zero]
    exact isCanonical_zero s
  have hplace := isLastPlace_exponentFor hn hd
  have hleast := hplace.least
  rw [ofRatio_eq s hn]
  split
  case isTrue hm =>
    split
    · trivial
    · exact ⟨by decide, by omega, by omega, .inr le_rfl⟩
  case isFalse hm =>
    split
    · trivial
    · refine ⟨lt_of_le_of_ne (significand_le hn hd) hm, hleast, by omega, ?_⟩
      refine hplace.above.imp_right fun habove => (le_significand_iff (by decide) hd).2 ?_
      refine le_trans ?_ habove
      gcongr
      norm_num

theorem ofRatio_congr (s : Bool) (hd : d ≠ 0) (hd' : d' ≠ 0) (h : (n : ℚ) / d = n' / d') :
    ofRatio s n d = ofRatio s n' d' := by
  by_cases hn : n = 0
  · obtain rfl : n' = 0 := by
      rw [hn, Nat.cast_zero, zero_div, eq_comm, div_eq_zero_iff] at h
      exact_mod_cast h.resolve_right (by exact_mod_cast hd')
    rw [hn, ofRatio_zero, ofRatio_zero]
  have hn' : n' ≠ 0 := by
    rintro rfl
    rw [Nat.cast_zero, zero_div, div_eq_zero_iff] at h
    exact hn (by exact_mod_cast h.resolve_right (by exact_mod_cast hd))
  have hplace : exponentFor n d = exponentFor n' d' :=
    (isLastPlace_exponentFor hn hd).unique (h ▸ isLastPlace_exponentFor hn' hd')
  have hround : significand n d = significand n' d' := by
    rw [significand, significand, hplace]
    refine roundDiv_congr (scaleTwo_snd_pos (Nat.pos_of_ne_zero hd) _)
      (scaleTwo_snd_pos (Nat.pos_of_ne_zero hd') _) ?_
    rw [scaleTwo_div, scaleTwo_div, h]
  rw [ofRatio_eq s hn, ofRatio_eq s hn', hplace, hround]

theorem ofRatio_finite_of_false (h : ofRatio false n d = .finite false m e) :
    ofRatio s n d = .finite s m e := by
  by_cases hn : n = 0
  · subst hn
    rw [ofRatio_zero] at h ⊢
    cases h
    rfl
  · rw [ofRatio_eq _ hn] at h ⊢
    split_ifs at h ⊢ <;> cases h <;> rfl

theorem IsValue.hasDigits (h : IsValue q) : HasDigits 2 53 q := by
  obtain ⟨m, e, hm, -, -, rfl⟩ := h
  exact ⟨m, e, hm, by norm_num⟩

/-- What is so near to a double is rounded to it. -/
theorem ofRatio_of_near (hx : IsCanonical (.finite s m e)) (hd : d ≠ 0)
    (hnear : 2 * |(n : ℚ) / d - magnitudeValue m e| * (2 ^ 53 + 1) ≤ magnitudeValue m e) :
    ofRatio s n d = .finite s m e := by
  have hpos : 0 ≤ magnitudeValue m e := by
    rw [magnitudeValue]
    positivity
  have hsmall : (n : ℚ) / d < overflow := by
    have hgreatest : magnitudeValue m e ≤ (2 ^ 53 - 1) * 2 ^ maxExponent := by
      have hm : (m : ℚ) ≤ 2 ^ 53 - 1 := by
        have hm : m + 1 ≤ 2 ^ 53 := hx.1
        rw [le_sub_iff_add_le]
        exact_mod_cast hm
      exact mul_le_mul hm (zpow_le_zpow_right₀ (by norm_num) hx.2.2.1) (by positivity) (by norm_num)
    have hlast : (0 : ℚ) < 2 ^ maxExponent := by positivity
    rw [overflow_eq]
    generalize (2 : ℚ) ^ maxExponent = last at *
    linarith [le_abs_self ((n : ℚ) / d - magnitudeValue m e)]
  obtain ⟨k, i, _, heq, hrounded⟩ := ofRatio_finite s hd hsmall
  have hcanonical : IsCanonical (.finite s k i) := heq ▸ ofRatio_canonical s n hd
  rw [heq]
  refine hcanonical.eq_of_value hx ?_
  by_contra hne
  have hgap := HasDigits.abs_lt_of_ne (by decide) hx.isValue.hasDigits
    hcanonical.isValue.hasDigits (Ne.symm hne)
  have hcloser := hrounded.nearest.near _ hx.isValue
  have htriangle := abs_sub_le (magnitudeValue m e) (n / d) (magnitudeValue k i)
  rw [abs_of_nonneg hpos] at hgap
  rw [abs_sub_comm (magnitudeValue k i)] at hcloser
  rw [abs_sub_comm (magnitudeValue m e) ((n : ℚ) / d)] at hcloser htriangle
  norm_num at hgap hnear
  linarith

/-- What is below half of the least double is rounded to zero. -/
theorem ofRatio_tiny (s : Bool) (hd : d ≠ 0) (h : (n : ℚ) / d < 2 ^ (minExponent - 1)) :
    ofRatio s n d = zero s := by
  have hpos : (0 : ℚ) ≤ n / d := by positivity
  have hsmall : (n : ℚ) / d < overflow := by
    have hone : (2 : ℚ) ^ (minExponent - 1) ≤ 1 :=
      zpow_le_one_of_nonpos₀ (by norm_num) (by decide)
    have hzero := isValue_zero.abs_add_one_le
    rw [abs_zero] at hzero
    linarith
  obtain ⟨k, i, _, heq, hrounded⟩ := ofRatio_finite s hd hsmall
  have hcanonical : IsCanonical (.finite s k i) := heq ▸ ofRatio_canonical s n hd
  rw [heq]
  have hcloser := hrounded.nearest.near 0 isValue_zero
  rw [zero_sub, abs_neg, abs_of_nonneg hpos] at hcloser
  have hleast : magnitudeValue k i < 2 ^ minExponent := by
    have hhalf : (2 : ℚ) ^ minExponent = 2 ^ (minExponent - 1) * 2 := by
      rw [← zpow_add_one₀ two_ne_zero, sub_add_cancel]
    linarith [le_abs_self (magnitudeValue k i - n / d)]
  have hzero : k = 0 := by
    by_contra hk
    have hone : (1 : ℚ) ≤ k := by exact_mod_cast Nat.one_le_iff_ne_zero.2 hk
    have hunit : (2 : ℚ) ^ minExponent ≤ 2 ^ i :=
      zpow_le_zpow_right₀ (by norm_num) hcanonical.2.1
    have hvalue : (2 : ℚ) ^ i ≤ magnitudeValue k i := le_mul_of_one_le_left (by positivity) hone
    linarith
  subst hzero
  obtain rfl : i = minExponent := hcanonical.2.2.2.resolve_right (by decide)
  rfl

/-! ### Decimals -/

/-- The bounds on the exponent decide what would come of the quotient as well. -/
theorem ofDecimal_eq (s : Bool) (k : ℕ) (e : ℤ) :
    ofDecimal s k e = ofRatio s (scaleTen k 1 e).1 (scaleTen k 1 e).2 := by
  have hd : (scaleTen k 1 e).2 ≠ 0 := (scaleTen_snd_pos Nat.one_pos e).ne'
  have hvalue : ((scaleTen k 1 e).1 : ℚ) / (scaleTen k 1 e).2 = k * 10 ^ e := by
    rw [scaleTen_div, Nat.cast_one, div_one]
  unfold ofDecimal
  split
  case isTrue hk =>
    subst hk
    have hzero : (scaleTen 0 1 e).1 = 0 := by cases e <;> simp [scaleTen]
    rw [hzero, ofRatio_zero]
  case isFalse hk =>
    have hone : (1 : ℚ) ≤ k := by exact_mod_cast Nat.one_le_iff_ne_zero.2 hk
    split
    case isTrue he =>
      refine (ofRatio_infinite s hd ?_).symm
      rw [hvalue]
      calc
        (overflow : ℚ) ≤ 10 ^ (311 : ℤ) := by
          rw [zpow_ofNat]
          exact_mod_cast (by decide +kernel : overflow ≤ 10 ^ 311)
        _ ≤ 10 ^ e := zpow_le_zpow_right₀ (by norm_num) he
        _ ≤ k * 10 ^ e := le_mul_of_one_le_left (by positivity) hone
    case isFalse =>
      split
      case isTrue he =>
        refine (ofRatio_tiny s hd ?_).symm
        have hdigits : (k : ℚ) < 10 ^ ((k.log2 : ℤ) + 1) := by
          have hlog : k < 10 ^ (k.log2 + 1) :=
            Nat.lt_log2_self.trans_le (Nat.pow_le_pow_left (by decide) _)
          exact_mod_cast hlog
        rw [hvalue]
        calc
          (k : ℚ) * 10 ^ e < 10 ^ ((k.log2 : ℤ) + 1) * 10 ^ e := by gcongr
          _ = 10 ^ ((k.log2 : ℤ) + 1 + e) := (zpow_add₀ (by norm_num) _ _).symm
          _ ≤ 10 ^ (-400 : ℤ) := zpow_le_zpow_right₀ (by norm_num) (by omega)
          _ ≤ 2 ^ (minExponent - 1) := by
            rw [minExponent, zpow_neg, show (-1074 - 1 : ℤ) = -1075 by rfl, zpow_neg,
              inv_le_inv₀ (by positivity) (by positivity), zpow_ofNat, zpow_ofNat]
            exact_mod_cast (by decide +kernel : 2 ^ 1075 ≤ 10 ^ 400)
      case isFalse => rfl

theorem ofDecimal_canonical (s : Bool) (k : ℕ) (e : ℤ) : IsCanonical (ofDecimal s k e) := by
  rw [ofDecimal_eq]
  exact ofRatio_canonical s _ (scaleTen_snd_pos Nat.one_pos e).ne'

theorem ofDecimal_congr (s : Bool) (h : (m : ℚ) * 10 ^ e = k * 10 ^ i) :
    ofDecimal s m e = ofDecimal s k i := by
  rw [ofDecimal_eq, ofDecimal_eq]
  refine ofRatio_congr s (scaleTen_snd_pos Nat.one_pos e).ne' (scaleTen_snd_pos Nat.one_pos i).ne' ?_
  rw [scaleTen_div, scaleTen_div, Nat.cast_one, div_one, div_one, h]

theorem ofDecimal_of_near (hx : IsCanonical (.finite s m e))
    (hnear : 2 * |(k : ℚ) * 10 ^ i - magnitudeValue m e| * (2 ^ 53 + 1) ≤ magnitudeValue m e) :
    ofDecimal s k i = .finite s m e := by
  rw [ofDecimal_eq]
  refine ofRatio_of_near hx (scaleTen_snd_pos Nat.one_pos i).ne' ?_
  rwa [scaleTen_div, Nat.cast_one, div_one]

theorem ofDecimal_finite_of_false (h : ofDecimal false k i = .finite false m e) :
    ofDecimal s k i = .finite s m e := by
  rw [ofDecimal_eq] at h ⊢
  exact ofRatio_finite_of_false h

end DesignComponents.Double
