import DesignComponents.Proofs.Number.Value

/-!
Numbers of so many digits at most, in any base, and which of them is nearest to another number.
-/

namespace DesignComponents

/-- No number of the class is nearer to `q` than `p`. -/
structure IsNearest (P : ℚ → Prop) (q p : ℚ) : Prop where
  mem : P p
  near : ∀ r, P r → |p - q| ≤ |r - q|

namespace IsNearest

variable {P : ℚ → Prop} {q p r : ℚ}

theorem eq (h : IsNearest P q p) (hq : P q) : p = q := by
  have hzero := h.near q hq
  rw [sub_self, abs_zero] at hzero
  exact sub_eq_zero.1 (abs_nonpos_iff.1 hzero)

theorem le (h : IsNearest P q p) (hr : P r) (hle : q ≤ r) : p ≤ r := by
  have hnear := h.near r hr
  rw [abs_of_nonneg (sub_nonneg.2 hle)] at hnear
  linarith [le_abs_self (p - q)]

theorem ge (h : IsNearest P q p) (hr : P r) (hle : r ≤ q) : r ≤ p := by
  have hnear := h.near r hr
  rw [abs_of_nonpos (sub_nonpos.2 hle)] at hnear
  linarith [neg_abs_le (p - q)]

theorem neg (hP : ∀ r, P r → P (-r)) (h : IsNearest P q p) : IsNearest P (-q) (-p) where
  mem := hP p h.mem
  near r hr := by
    calc
      |-p - -q| = |p - q| := by rw [neg_sub_neg, abs_sub_comm]
      _ ≤ |-r - q| := h.near (-r) (hP r hr)
      _ = |r - -q| := by rw [← neg_add', abs_neg, sub_neg_eq_add]

end IsNearest

/-- A whole number of `count` digits at most, times a power of the base. -/
def HasDigits (base count : ℕ) (q : ℚ) : Prop :=
  ∃ m e : ℤ, m.natAbs < base ^ count ∧ q = m * (base : ℚ) ^ e

variable {base count : ℕ} {q p r u : ℚ} {k m e i : ℤ}

theorem natAbs_cast (m : ℤ) : (m.natAbs : ℚ) = |(m : ℚ)| := by
  rw [Nat.cast_natAbs, Int.cast_abs]

theorem one_le_abs_sub {a b : ℤ} (h : a ≠ b) : (1 : ℚ) ≤ |(a : ℚ) - b| := by
  rw [← Int.cast_sub, ← Int.cast_abs]
  exact_mod_cast Int.one_le_abs (sub_ne_zero.2 h)

/-- Half a unit is nearer than any other number of whole units. -/
theorem near_of_half (hu : 0 < u) (hk : |k - q / u| ≤ 1 / 2) (j : ℤ) :
    |k * u - q| ≤ |j * u - q| := by
  have hscale (j : ℤ) : |j * u - q| = |j - q / u| * u := by
    rw [← abs_of_pos hu, ← abs_mul, abs_of_pos hu, sub_mul, div_mul_cancel₀ _ hu.ne']
  rw [hscale, hscale]
  apply mul_le_mul_of_nonneg_right _ hu.le
  rcases eq_or_ne k j with rfl | hne
  · exact le_rfl
  · have hone := one_le_abs_sub hne
    have htriangle : |(k : ℚ) - j| ≤ |k - q / u| + |j - q / u| := by
      rw [abs_sub_comm (j : ℚ)]
      exact abs_sub_le _ _ _
    linarith

theorem exists_mul_zpow (hbase : base ≠ 0) (h : e ≤ i) (m : ℤ) :
    ∃ j : ℤ, (m : ℚ) * (base : ℚ) ^ i = j * (base : ℚ) ^ e := by
  refine ⟨m * base ^ (i - e).toNat, ?_⟩
  obtain ⟨d, rfl⟩ := Int.le.dest h
  have hbase' : (base : ℚ) ≠ 0 := by exact_mod_cast hbase
  simp only [add_sub_cancel_left, Int.toNat_natCast]
  rw [zpow_add₀ hbase', zpow_natCast]
  push_cast
  ring

/-- A unit is nearest if no number of so many digits is between two of its multiples, or if `q` has
so many digits before that unit. -/
theorem near_of_digits (hbase : 1 < base) (hk : |k - q / (base : ℚ) ^ e| ≤ 1 / 2)
    (hm : m.natAbs < base ^ (count + 1)) (hq : e ≤ i ∨ (base : ℚ) ^ count * (base : ℚ) ^ e ≤ q) :
    |k * (base : ℚ) ^ e - q| ≤ |m * (base : ℚ) ^ i - q| := by
  have hpos : (0 : ℚ) < base := by exact_mod_cast (by omega : 0 < base)
  have hunit : (0 : ℚ) < (base : ℚ) ^ e := by positivity
  rcases le_or_gt e i with hi | hi
  · obtain ⟨j, hj⟩ := exists_mul_zpow (by omega : base ≠ 0) hi m
    rw [hj]
    exact near_of_half hunit hk j
  · have hlow := hq.resolve_left (not_le.2 hi)
    have hsmall : (m : ℚ) * (base : ℚ) ^ i ≤ (base : ℚ) ^ count * (base : ℚ) ^ e := by
      have hm' : (m : ℚ) ≤ (base : ℚ) ^ (count + 1) := by
        have hnat : (m.natAbs : ℚ) < (base : ℚ) ^ (count + 1) := by exact_mod_cast hm
        rw [natAbs_cast] at hnat
        exact (le_abs_self _).trans hnat.le
      calc
        (m : ℚ) * (base : ℚ) ^ i ≤ (base : ℚ) ^ (count + 1) * (base : ℚ) ^ (e - 1) := by
          apply mul_le_mul hm' _ (by positivity) (by positivity)
          exact zpow_le_zpow_right₀ (by exact_mod_cast hbase.le) (by omega)
        _ = (base : ℚ) ^ count * (base : ℚ) ^ e := by
          rw [zpow_sub_one₀ hpos.ne', pow_succ]
          field_simp
    have hcorner := near_of_half hunit hk (base ^ count)
    push_cast at hcorner
    rw [abs_of_nonpos (sub_nonpos.2 hlow)] at hcorner
    rw [abs_of_nonpos (by linarith : (m : ℚ) * (base : ℚ) ^ i - q ≤ 0)]
    linarith

theorem unit_le_of_ne {a b : ℤ} (hu : 0 < u) (h : a * u ≠ b * u) : u ≤ |a * u - b * u| := by
  have hne : a ≠ b := by
    rintro rfl
    exact h rfl
  rw [← sub_mul, abs_mul, abs_of_pos hu]
  exact le_mul_of_one_le_left hu.le (one_le_abs_sub hne)

namespace HasDigits

theorem neg (h : HasDigits base count q) : HasDigits base count (-q) := by
  obtain ⟨m, e, hm, rfl⟩ := h
  exact ⟨-m, e, by rwa [Int.natAbs_neg], by push_cast; ring⟩

/-- Of two numbers, the one of the finer unit is no larger than its digits allow. -/
theorem abs_lt_of_fine (hbase : 1 < base) (h : m.natAbs < base ^ count) (hi : e ≤ i)
    (hne : (m : ℚ) * (base : ℚ) ^ e ≠ k * (base : ℚ) ^ i) : |(m : ℚ) * (base : ℚ) ^ e| <
      (base : ℚ) ^ count * |(m : ℚ) * (base : ℚ) ^ e - k * (base : ℚ) ^ i| := by
  have hpos : (0 : ℚ) < base := by exact_mod_cast (by omega : 0 < base)
  have hunit : (0 : ℚ) < (base : ℚ) ^ e := by positivity
  have hm : |(m : ℚ)| < (base : ℚ) ^ count := by
    rw [← natAbs_cast]
    exact_mod_cast h
  obtain ⟨j, hj⟩ := exists_mul_zpow (by omega : base ≠ 0) hi k
  rw [hj] at hne ⊢
  calc
    |(m : ℚ) * (base : ℚ) ^ e| = |(m : ℚ)| * (base : ℚ) ^ e := by rw [abs_mul, abs_of_pos hunit]
    _ < (base : ℚ) ^ count * (base : ℚ) ^ e := by gcongr
    _ ≤ (base : ℚ) ^ count * |(m : ℚ) * (base : ℚ) ^ e - j * (base : ℚ) ^ e| := by
      gcongr
      exact unit_le_of_ne hunit hne

/-- Two numbers of so many digits are the same or far apart. -/
theorem abs_lt_of_ne (hbase : 1 < base) (hp : HasDigits base count p)
    (hr : HasDigits base count r) (hne : p ≠ r) :
    |p| < ((base : ℚ) ^ count + 1) * |p - r| := by
  obtain ⟨m, e, hm, rfl⟩ := hp
  obtain ⟨k, i, hk, rfl⟩ := hr
  have hdist : 0 < |(m : ℚ) * (base : ℚ) ^ e - k * (base : ℚ) ^ i| :=
    abs_pos.2 (sub_ne_zero.2 hne)
  rw [add_mul, one_mul]
  rcases le_total e i with hi | hi
  · linarith [abs_lt_of_fine hbase hm hi hne]
  · have hfine := abs_lt_of_fine hbase hk hi hne.symm
    rw [abs_sub_comm] at hfine
    have htriangle := abs_sub_abs_le_abs_sub ((m : ℚ) * (base : ℚ) ^ e) (k * (base : ℚ) ^ i)
    linarith

end HasDigits

end DesignComponents
