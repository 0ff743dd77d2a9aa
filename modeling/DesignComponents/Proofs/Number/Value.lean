import DesignComponents.Number.Basic
import Mathlib.Algebra.Order.Field.Power
import Mathlib.Data.Nat.Cast.Order.Field
import Mathlib.Data.Rat.Cast.Order
import Mathlib.Tactic.FieldSimp
import Mathlib.Tactic.Linarith
import Mathlib.Tactic.NormNum
import Mathlib.Tactic.Positivity
import Mathlib.Tactic.Ring

/-!
The exact values of doubles, and how near a quotient is to the whole number it is rounded to.
-/

namespace DesignComponents

theorem scaleTwo_snd_pos {n d : Nat} (hd : 0 < d) (e : Int) : 0 < (scaleTwo n d e).2 := by
  cases e with
  | ofNat k => exact hd
  | negSucc k => exact Nat.mul_pos hd (Nat.pow_pos (by decide))

theorem scaleTwo_div (n d : Nat) (e : Int) :
    ((scaleTwo n d e).1 : ℚ) / (scaleTwo n d e).2 = n / d * 2 ^ e := by
  cases e with
  | ofNat k =>
    simp only [scaleTwo, Nat.pow_eq, Int.ofNat_eq_natCast, zpow_natCast]
    push_cast
    ring
  | negSucc k =>
    simp only [scaleTwo, Nat.pow_eq, zpow_negSucc]
    push_cast
    field_simp

section

variable {n d k : Nat}

theorem roundDiv_bounds (hd : 0 < d) :
    2 * n ≤ (2 * roundDiv n d + 1) * d ∧ 2 * roundDiv n d * d ≤ 2 * n + d := by
  have hdiv := Nat.div_add_mod n d
  have hlt := Nat.mod_lt n hd
  unfold roundDiv
  generalize n / d = q at *
  generalize n % d = r at *
  subst hdiv
  split
  · constructor <;> nlinarith
  · split
    · constructor <;> nlinarith
    · split <;> constructor <;> nlinarith

/-- A tie goes up to an even number. -/
theorem le_roundDiv_of_even (hk : k % 2 = 0) (hd : 0 < d) (h : 2 * k * d ≤ 2 * n + d) :
    k ≤ roundDiv n d := by
  have hdiv := Nat.div_add_mod n d
  have hlt := Nat.mod_lt n hd
  have hle : k ≤ n / d + 1 := by
    by_contra hgt
    have hstep : (n / d + 2) * d ≤ k * d := Nat.mul_le_mul_right d (by omega)
    nlinarith
  unfold roundDiv
  split
  case isTrue hless =>
    by_contra hgt
    have hstep : (n / d + 1) * d ≤ k * d := Nat.mul_le_mul_right d (by omega)
    nlinarith
  case isFalse =>
    split
    · exact hle
    · split <;> omega

theorem le_roundDiv_iff_of_even (hk : k % 2 = 0) (hd : 0 < d) :
    k ≤ roundDiv n d ↔ 2 * k * d ≤ 2 * n + d := by
  refine ⟨fun h => ?_, le_roundDiv_of_even hk hd⟩
  calc
    2 * k * d ≤ 2 * roundDiv n d * d := by gcongr
    _ ≤ 2 * n + d := (roundDiv_bounds hd).2

theorem roundDiv_near (hd : 0 < d) : |(roundDiv n d : ℚ) - n / d| ≤ 1 / 2 := by
  obtain ⟨hlow, hhigh⟩ := roundDiv_bounds hd (n := n)
  have hd' : (0 : ℚ) < d := by exact_mod_cast hd
  have hlow' : (2 * n : ℚ) ≤ (2 * roundDiv n d + 1) * d := by exact_mod_cast hlow
  have hhigh' : (2 * roundDiv n d * d : ℚ) ≤ 2 * n + d := by exact_mod_cast hhigh
  rw [abs_sub_le_iff]
  constructor
  · rw [sub_le_iff_le_add, ← sub_le_iff_le_add', le_div_iff₀ hd']
    linarith
  · rw [sub_le_iff_le_add, div_le_iff₀ hd']
    linarith

theorem roundDiv_mul_left {c : Nat} (hc : 0 < c) (n d : Nat) :
    roundDiv (c * n) (c * d) = roundDiv n d := by
  have hless (a b : Nat) : c * a < c * b ↔ a < b := Nat.mul_lt_mul_left hc
  simp only [roundDiv, Nat.mul_div_mul_left _ _ hc, Nat.mul_mod_mul_left, Nat.mul_left_comm 2 c,
    hless]

/-- What a quotient is rounded to depends on its value alone. -/
theorem roundDiv_congr {n' d' : Nat} (hd : 0 < d) (hd' : 0 < d') (h : (n : ℚ) / d = n' / d') :
    roundDiv n d = roundDiv n' d' := by
  have hcross : d' * n = d * n' := by
    rw [div_eq_div_iff (by positivity) (by positivity)] at h
    rw [Nat.mul_comm d', Nat.mul_comm d]
    exact_mod_cast h
  calc
    roundDiv n d = roundDiv (d' * n) (d' * d) := (roundDiv_mul_left hd' n d).symm
    _ = roundDiv (d * n') (d * d') := by rw [hcross, Nat.mul_comm d']
    _ = roundDiv n' d' := roundDiv_mul_left hd n' d'

end

namespace Double

/-- What a finite number is without its sign. -/
def magnitudeValue (m : Nat) (e : Int) : ℚ := m * 2 ^ e

/-- The exact value of a finite number. -/
def value? : Double → Option ℚ
  | .finite s m e => some (if s then -magnitudeValue m e else magnitudeValue m e)
  | _ => none

theorem magnitude_snd_pos (m : Nat) (e : Int) : 0 < (magnitude m e).2 :=
  scaleTwo_snd_pos Nat.one_pos e

theorem magnitude_fst_ne_zero {m : Nat} (hm : m ≠ 0) (e : Int) : (magnitude m e).1 ≠ 0 := by
  cases e with
  | ofNat k => exact mul_ne_zero hm (Nat.pow_pos (by decide)).ne'
  | negSucc k => exact hm

theorem magnitude_div (m : Nat) (e : Int) :
    ((magnitude m e).1 : ℚ) / (magnitude m e).2 = magnitudeValue m e := by
  simp [magnitude, scaleTwo_div, magnitudeValue]

end Double

end DesignComponents
