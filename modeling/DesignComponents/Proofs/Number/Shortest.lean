import DesignComponents.Proofs.Number.Canonical

/-!
The digits that a double is written with read back as the same double: fewer of them because that is
tried, and seventeen because no other double is so near.
-/

namespace DesignComponents.Decimal

open Double (IsCanonical magnitude magnitudeValue ofDecimal)

/-- The digits are rounded to the double. -/
structure IsReadAs (x : Double) (r : Decimal) : Prop where
  ne_zero : r.digits ≠ 0
  reads : ofDecimal false r.digits (r.exponent + 1 - digitCount r.digits) = x

variable {s : Bool} {x : Double} {r : Decimal} {n d m k count : ℕ} {e i : ℤ}

/-- However the value of the digits is put. -/
theorem IsReadAs.ofDecimal_eq (h : r.IsReadAs (.finite false m e))
    (hvalue : (k : ℚ) * 10 ^ i = r.value) : ofDecimal s k i = .finite s m e :=
  Double.ofDecimal_finite_of_false ((Double.ofDecimal_congr false hvalue).trans h.reads)

/-- The digits before a place and those after a step up, which may be one digit more. -/
theorem isReadAs_of_back (hlow : 10 ^ count ≤ k) (hhigh : k ≤ 10 ^ (count + 1))
    (hback : ofDecimal false k (e - count) = x) :
    (if k = 10 ^ (count + 1) then ⟨k / 10, e + 1⟩ else ⟨k, e⟩ : Decimal).IsReadAs x := by
  have hpos : 0 < 10 ^ count := by positivity
  split
  case isTrue htop =>
    have hdigits : k / 10 = 10 ^ count := by
      rw [htop, pow_succ, Nat.mul_div_cancel _ (by decide)]
    have hcount : digitCount (10 ^ count) = count + 1 :=
      digitCount_eq le_rfl (Nat.pow_lt_pow_right (by decide) (Nat.lt_succ_self _))
    rw [hdigits]
    refine ⟨hpos.ne', (Double.ofDecimal_congr false ?_).trans hback⟩
    rw [htop, hcount, Nat.cast_pow, Nat.cast_pow, Nat.cast_ofNat, ← zpow_natCast, ← zpow_natCast,
      ← zpow_add₀ (by norm_num), ← zpow_add₀ (by norm_num)]
    congr 1
    push_cast
    ring
  case isFalse htop =>
    have hcount : digitCount k = count + 1 := digitCount_eq hlow (lt_of_le_of_ne hhigh htop)
    refine ⟨(hpos.trans_le hlow).ne', ?_⟩
    simp only [hcount]
    rw [← hback]
    congr 1
    push_cast
    ring

/-- The first `count + 1` digits of a quotient, cut off. -/
theorem cut_bounds (count : ℕ) (hn : n ≠ 0) (hd : d ≠ 0) :
    let cut := (scaleTen n d (count - decimalExponent n d)).1 /
      (scaleTen n d (count - decimalExponent n d)).2
    10 ^ count ≤ cut ∧ cut < 10 ^ (count + 1) := by
  intro cut
  have hpos := scaleTen_snd_pos (n := n) (Nat.pos_of_ne_zero hd) (count - decimalExponent n d)
  have hpos' : (0 : ℚ) < (scaleTen n d (count - decimalExponent n d)).2 := by exact_mod_cast hpos
  obtain ⟨hlow, hhigh⟩ := decimalExponent_bounds hn hd
  have hvalue := scaleTen_div n d (count - decimalExponent n d)
  have hunit : (0 : ℚ) < 10 ^ ((count : ℤ) - decimalExponent n d) := by positivity
  constructor
  · rw [Nat.le_div_iff_mul_le hpos]
    have hle : ((10 ^ count : ℕ) : ℚ) ≤ n / d * 10 ^ ((count : ℤ) - decimalExponent n d) := by
      calc
        ((10 ^ count : ℕ) : ℚ)
          = 10 ^ decimalExponent n d * 10 ^ ((count : ℤ) - decimalExponent n d) := by
            rw [← zpow_add₀ (by norm_num), add_sub_cancel, zpow_natCast]
            push_cast
            rfl
        _ ≤ n / d * 10 ^ ((count : ℤ) - decimalExponent n d) := by gcongr
    rw [← hvalue, le_div_iff₀ hpos'] at hle
    exact_mod_cast hle
  · rw [Nat.div_lt_iff_lt_mul hpos]
    have hlt : (n : ℚ) / d * 10 ^ ((count : ℤ) - decimalExponent n d) <
        ((10 ^ (count + 1) : ℕ) : ℚ) := by
      calc
        (n : ℚ) / d * 10 ^ ((count : ℤ) - decimalExponent n d)
          < 10 ^ (decimalExponent n d + 1) * 10 ^ ((count : ℤ) - decimalExponent n d) := by gcongr
        _ = ((10 ^ (count + 1) : ℕ) : ℚ) := by
          rw [← zpow_add₀ (by norm_num), Nat.cast_pow, Nat.cast_ofNat, ← zpow_natCast]
          congr 1
          push_cast
          ring
    rw [← hvalue, div_lt_iff₀ hpos'] at hlt
    exact_mod_cast hlt

theorem readsBack?_isReadAs (hn : n ≠ 0) (hd : d ≠ 0)
    (h : readsBack? x n d (count + 1) = some r) : r.IsReadAs x := by
  obtain ⟨hlow, hhigh⟩ := cut_bounds count hn hd
  have hscale : ((count + 1 : ℕ) : ℤ) - 1 - decimalExponent n d = count - decimalExponent n d := by
    push_cast
    ring
  have hplace : decimalExponent n d - (((count + 1 : ℕ) : ℤ) - 1) =
      decimalExponent n d - count := by
    push_cast
    ring
  simp only [readsBack?, hscale, hplace, Nat.pow_eq, decide_eq_true_eq] at h
  generalize (scaleTen n d (count - decimalExponent n d)).1 /
    (scaleTen n d (count - decimalExponent n d)).2 = cut at h hlow hhigh
  have hdown (l : Decimal) (hl : (if ofDecimal false cut (decimalExponent n d - count) = x then
      some (⟨cut, decimalExponent n d⟩ : Decimal) else none) = some l) : l.IsReadAs x := by
    obtain ⟨hback, hl⟩ := Option.ite_none_right_eq_some.1 hl
    have hread := isReadAs_of_back hlow hhigh.le hback
    rw [if_neg hhigh.ne] at hread
    exact Option.some.inj hl ▸ hread
  have hup (l : Decimal) (hl : (if ofDecimal false (cut + 1) (decimalExponent n d - count) = x then
      some (if cut + 1 = 10 ^ (count + 1) then ⟨(cut + 1) / 10, decimalExponent n d + 1⟩
        else ⟨cut + 1, decimalExponent n d⟩ : Decimal) else none) = some l) : l.IsReadAs x := by
    obtain ⟨hback, hl⟩ := Option.ite_none_right_eq_some.1 hl
    exact Option.some.inj hl ▸ isReadAs_of_back (by omega : 10 ^ count ≤ cut + 1) hhigh hback
  generalize (if _ = x then some _ else none : Option Decimal) = down at h hdown
  generalize (if _ = x then some _ else none : Option Decimal) = up at h hup
  split at h
  case isTrue => exact hdown r h
  case isFalse =>
    split at h
    case h_1 _ _ l u =>
      obtain rfl := Option.some.inj h
      split
      · exact hdown l rfl
      · exact hup u rfl
    case h_2 _ _ l =>
      obtain rfl := Option.some.inj h
      exact hdown l rfl
    case h_3 => exact hup r h

/-- A number of seventeen digits is nearer to the quotient than any two doubles are. -/
theorem significant_isReadAs (hm : m ≠ 0) (hx : IsCanonical (.finite false m e)) :
    (significant 17 (magnitude m e).1 (magnitude m e).2).IsReadAs (.finite false m e) := by
  have hn := Double.magnitude_fst_ne_zero hm e
  have hd := (Double.magnitude_snd_pos m e).ne'
  have hlow := (significant_digits_bounds 16 hn hd).1
  refine ⟨((by decide : 0 < 10 ^ 16).trans_le hlow).ne', Double.ofDecimal_of_near hx ?_⟩
  have hvalue := significant_value 16 hn hd
  have hnear := leadingDigits_near (n := (magnitude m e).1) 16 hd
  have hunits := pow_le_of_decimalExponent 16 hn hd
  rw [value] at hvalue
  rw [hvalue]
  rw [Double.magnitude_div] at hnear hunits
  generalize leadingDigits 16 (magnitude m e).1 (magnitude m e).2 = lead at hnear ⊢
  have hunit : (0 : ℚ) < 10 ^ (decimalExponent (magnitude m e).1 (magnitude m e).2 - (16 : ℕ)) := by
    positivity
  generalize (10 : ℚ) ^ (decimalExponent (magnitude m e).1 (magnitude m e).2 - (16 : ℕ)) = unit at *
  have hscale : |lead * unit - magnitudeValue m e| = |lead - magnitudeValue m e / unit| * unit := by
    rw [← abs_of_pos hunit, ← abs_mul, abs_of_pos hunit, sub_mul, div_mul_cancel₀ _ hunit.ne']
  rw [hscale]
  calc
    2 * (|(lead : ℚ) - magnitudeValue m e / unit| * unit) * (2 ^ 53 + 1)
      ≤ 2 * (1 / 2 * unit) * (2 ^ 53 + 1) := by gcongr
    _ ≤ 10 ^ 16 * unit := by linarith
    _ ≤ magnitudeValue m e := hunits

theorem shortestFrom_isReadAs {more : ℕ} (hm : m ≠ 0) (hx : IsCanonical (.finite false m e))
    (hmore : count + more = 16) :
    (shortestFrom (.finite false m e) (magnitude m e).1 (magnitude m e).2 (count + 1) more).IsReadAs
      (.finite false m e) := by
  induction more generalizing count with
  | zero =>
    obtain rfl : count = 16 := hmore
    exact significant_isReadAs hm hx
  | succ more ih =>
    rw [shortestFrom]
    split
    case h_1 r h =>
      exact readsBack?_isReadAs (Double.magnitude_fst_ne_zero hm e)
        (Double.magnitude_snd_pos m e).ne' h
    case h_2 => exact ih (by omega)

theorem shortest_isReadAs (hm : m ≠ 0) (hx : IsCanonical (.finite false m e)) :
    (shortest m e).IsReadAs (.finite false m e) := shortestFrom_isReadAs hm hx (by decide)

end DesignComponents.Decimal
