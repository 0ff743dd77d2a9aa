import DesignComponents.Css.Color
import DesignComponents.Proofs.Json.Shape
import DesignComponents.Proofs.Number.Whole

/-!
Colours with channels between zero and one have a text: no product leaves the range of doubles, and
a channel becomes one of the steps next to it, which have no more digits than may be written.
-/

namespace DesignComponents

namespace Number

/-- Near enough to a double; whole numbers may be too large. -/
def IsMeasurable (n : Number) : Prop := ∃ x, n.toDouble? = some x

theorem IsMeasurable.of_isFinite {n : Number} (h : n.isFinite = true) : n.IsMeasurable := by
  cases n with
  | int n => exact Option.isSome_iff_exists.1 h
  | double x => exact ⟨x, rfl⟩

theorem isUnit_int {n : Int} (h : (Number.int n).isUnit = true) : n = 0 ∨ n = 1 := by
  simp only [isUnit, compareInt?_int, Bool.and_eq_true, bne_iff_ne, ne_eq] at h
  rw [compare_lt_iff_lt, compare_gt_iff_gt] at h
  omega

theorem value?_of_isUnit {n : Number} (h : n.isUnit = true) :
    ∃ q, n.value? = some q ∧ 0 ≤ q ∧ q ≤ 1 := by
  obtain ⟨q, hq⟩ : ∃ q, n.value? = some q := by
    rcases n with k | (_ | s | _)
    · exact ⟨k, rfl⟩
    · exact ⟨_, rfl⟩
    · cases s <;> simp [isUnit, compareInt?] at h
    · simp [isUnit] at h
  simp only [isUnit, compareInt?_of_value hq, Bool.and_eq_true, bne_iff_ne, ne_eq] at h
  rw [compare_lt_iff_lt, compare_gt_iff_gt, not_lt, not_lt] at h
  exact ⟨q, hq, by exact_mod_cast h.1, by exact_mod_cast h.2⟩

theorem IsMeasurable.of_isUnit {n : Number} (h : n.isUnit = true) : n.IsMeasurable := by
  cases n with
  | int n =>
    rcases isUnit_int h with rfl | rfl
    · exact ⟨.zero false, rfl⟩
    · exact ⟨.finite false (2 ^ 52) (-52), rfl⟩
  | double x => exact ⟨x, rfl⟩

end Number

namespace Css

theorem measure_yields {n : Number} (h : n.IsMeasurable) :
    Yields (measure (.num n)) fun _ => True := by
  cases n with
  | int n =>
    obtain ⟨x, hx⟩ := h
    simp only [Number.toDouble?] at hx
    simp [measure, Json.number?, rounded, hx]
  | double x => simp [measure, Json.number?, rounded]

/-- A channel is one of 255 steps from none to full, the nearest but for one rounding of the
product. -/
structure IsStep (q : ℚ) (k : ℤ) : Prop where
  nonneg : 0 ≤ k
  le : k ≤ 255
  near : |k / 255 - q| ≤ 1 / 510 + 2 ^ (-46 : ℤ) / 255
  exact : Double.IsValue (255 * q) → |k / 255 - q| ≤ 1 / 510

theorem ofRatio_scale : (Double.ofRatio false 255 1).value? = some 255 := by
  have hscale : Double.ofRatio false 255 1 = .finite false (255 * 2 ^ 45) (-45) := by rfl
  rw [hscale, Double.value?]
  norm_num [Double.magnitudeValue]

theorem abs_step_sub (k : ℤ) (q : ℚ) : |k / 255 - q| = |k - 255 * q| / 255 := by
  have hstep : (k : ℚ) / 255 - q = (k - 255 * q) / 255 := by ring
  rw [hstep, abs_div, abs_of_pos (by norm_num : (0 : ℚ) < 255)]

theorem IsStep.of_rounded {q y : ℚ} {k e : ℤ} (hzero : 0 ≤ q) (hone : q ≤ 1)
    (hy : Double.IsRounded (255 * q) y e) (hk : |k - y| ≤ 1 / 2) : IsStep q k := by
  have hlow : 0 ≤ y := hy.nearest.ge Double.isValue_zero (by linarith)
  have hhigh : y ≤ 255 := by
    refine hy.nearest.le ?_ (by linarith)
    exact_mod_cast Double.isValue_intCast (k := 255) (by decide)
  have hround : |y - 255 * q| ≤ 2 ^ (-46 : ℤ) := by
    have habs : |255 * q| < 2 ^ 53 * 2 ^ (-45 : ℤ) := by
      rw [abs_of_nonneg (by linarith)]
      norm_num
      linarith
    refine (hy.absolute (by decide) habs).trans_eq ?_
    norm_num
  obtain ⟨hless, hmore⟩ := abs_sub_le_iff.1 hk
  refine ⟨?_, ?_, ?_, ?_⟩
  · have : ((-1 : ℤ) : ℚ) < k := by
      push_cast
      linarith
    exact_mod_cast this
  · have : (k : ℚ) < ((256 : ℤ) : ℚ) := by
      push_cast
      linarith
    exact Int.lt_add_one_iff.1 (by exact_mod_cast this)
  · have htriangle : |k - 255 * q| ≤ |k - y| + |y - 255 * q| := abs_sub_le _ _ _
    rw [abs_step_sub]
    calc
      |(k : ℚ) - 255 * q| / 255 ≤ (1 / 2 + 2 ^ (-46 : ℤ)) / 255 := by
        gcongr
        exact htriangle.trans (add_le_add hk hround)
      _ = 1 / 510 + 2 ^ (-46 : ℤ) / 255 := by
        rw [add_div]
        norm_num
  · intro hvalue
    rw [abs_step_sub, ← hy.nearest.eq hvalue]
    linarith

theorem channel_step {n : Number} {q : ℚ} (hn : n.value? = some q) (hzero : 0 ≤ q) (hone : q ≤ 1) :
    ∃ k, channel (.num n) = .ok k ∧ IsStep q k := by
  cases n with
  | int n =>
    obtain rfl := Option.some.inj hn
    have hsame : ((n * 255 : ℤ) : ℚ) / 255 - n = 0 := by
      push_cast
      ring
    have hzero' : 0 ≤ n := by exact_mod_cast hzero
    have hone' : n ≤ 1 := by exact_mod_cast hone
    refine ⟨n * 255, rfl, by omega, by omega, ?_, fun _ => ?_⟩
    · rw [hsame, abs_zero]
      positivity
    · rw [hsame, abs_zero]
      norm_num
  | double x =>
    have hsmall : |q * 255| < Double.overflow := by
      have hover : (256 : ℚ) ≤ Double.overflow := by
        exact_mod_cast (by decide +kernel : 256 ≤ Double.overflow)
      rw [abs_of_nonneg (by linarith)]
      linarith
    obtain ⟨y, e, hy, hrounded⟩ := Double.mul_rounded hn ofRatio_scale hsmall
    obtain ⟨k, hround, hk⟩ := Double.roundInt?_near hy
    rw [mul_comm] at hrounded
    refine ⟨k, ?_, .of_rounded hzero hone hrounded hk⟩
    simp only [channel, Json.number?, hround]

theorem channel_yields {v : Json} (h : Shape.unit v = true) :
    Yields (channel v) fun k => 0 ≤ k ∧ k ≤ 255 := by
  obtain ⟨n, rfl, hn⟩ := Shape.exists_of_unit h
  obtain ⟨q, hq, hzero, hone⟩ := Number.value?_of_isUnit hn
  obtain ⟨k, hk, hstep⟩ := channel_step hq hzero hone
  exact ⟨k, hk, hstep.nonneg, hstep.le⟩

theorem decimal_eq {k : Int} (h : 0 ≤ k ∧ k ≤ 255) : decimal k = .ok (toString k) := by
  have hlen : (toString k.natAbs).length ≤ 3 := (Nat.length_repr_le_iff (by decide)).2 (by omega)
  have hlimit : ¬ Number.digitLimit < (toString k.natAbs).length := by
    simp only [Number.digitLimit]
    omega
  rw [decimal, if_neg hlimit]

/-- A whole number times zero or one is no larger; all other products are doubles. -/
theorem product_yields {x y : Number} (hx : x.IsMeasurable) (hy : y.isUnit = true) :
    Yields (product x y) Number.IsMeasurable := by
  obtain ⟨a, ha⟩ := hx
  obtain ⟨b, hb⟩ := Number.IsMeasurable.of_isUnit hy
  have hdouble (z : Double) : (Number.double z).IsMeasurable := ⟨z, rfl⟩
  cases x with
  | int m =>
    cases y with
    | int n =>
      rcases Number.isUnit_int hy with rfl | rfl
      · exact ⟨.int 0, by simp [product], .of_isUnit rfl⟩
      · exact ⟨.int m, by simp [product], a, ha⟩
    | double y => simpa [product, ha, hb] using hdouble _
  | double x => cases y <;> simpa [product, ha, hb] using hdouble _

theorem alpha_yields {own opacity : Json} (ho : Shape.unit own = true)
    (hp : opacity = .null ∨ Shape.number opacity = true) :
    Yields (alpha own opacity) Number.IsMeasurable := by
  obtain ⟨n, rfl, hn⟩ := Shape.exists_of_unit ho
  rcases hp with rfl | hp
  · exact ⟨n, rfl, .of_isUnit hn⟩
  · obtain ⟨p, rfl, hp⟩ := Shape.exists_of_number hp
    simpa [alpha, Json.number?] using product_yields (.of_isFinite hp) hn

end Css

end DesignComponents
