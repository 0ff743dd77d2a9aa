import DesignComponents.Proofs.Number.Nearest

/-!
Whole numbers as doubles: which of them are too large, and how near the double is to the others.
-/

namespace DesignComponents

namespace Double

/-- A whole number that is not too large is held by the nearest double. -/
theorem ofInt?_rounded {k : ℤ} (h : k.natAbs < overflow) :
    ∃ x q e, ofInt? k = some x ∧ x.value? = some q ∧ IsRounded k q e := by
  have hratio : ((k.natAbs : ℕ) : ℚ) / (1 : ℕ) = |(k : ℚ)| := by
    rw [Nat.cast_one, div_one, natAbs_cast]
  have hsign : signed (decide (k < 0)) |(k : ℚ)| = k := by
    rcases lt_or_ge k 0 with hk | hk
    · rw [decide_eq_true hk, signed, if_pos rfl, abs_of_neg (by exact_mod_cast hk), neg_neg]
    · rw [decide_eq_false hk.not_gt, signed, if_neg (by decide), abs_of_nonneg (by exact_mod_cast hk)]
  have hsmall : ((k.natAbs : ℕ) : ℚ) / (1 : ℕ) < overflow := by
    rw [Nat.cast_one, div_one]
    exact_mod_cast h
  obtain ⟨q, e, hvalue, hrounded⟩ := ofRatio_rounded (k < 0) one_ne_zero hsmall
  rw [hratio, hsign] at hrounded
  obtain ⟨s, m, i, hx, -⟩ := exists_of_value? hvalue
  exact ⟨_, q, e, by rw [ofInt?, hx], hvalue, hrounded⟩

end Double

namespace Number

/-- Numbers and whole ones are compared by their exact values. -/
theorem compareInt?_value {x : Double} {q : ℚ} (h : x.value? = some q) (k : Int) :
    compareInt? (.double x) k = some (compare q k) := by
  cases x with
  | infinite s => cases h
  | nan => cases h
  | finite s m e =>
    obtain rfl := Option.some.inj h
    have hcompare : compareInt? (.double (.finite s m e)) k =
        some (compare (if s then -((Double.magnitude m e).1 : Int) else (Double.magnitude m e).1)
          (k * (Double.magnitude m e).2)) := rfl
    have hpos : (0 : ℚ) < (Double.magnitude m e).2 := by
      exact_mod_cast Double.magnitude_snd_pos m e
    have hsigned : ((if s then -((Double.magnitude m e).1 : Int) else (Double.magnitude m e).1 :
        Int) : ℚ) = (if s then -Double.magnitudeValue m e else Double.magnitudeValue m e) *
          (Double.magnitude m e).2 := by
      rw [← Double.magnitude_div]
      cases s <;> simp [hpos.ne']
    have hscaled : ((k * (Double.magnitude m e).2 : Int) : ℚ) = k * (Double.magnitude m e).2 := by
      push_cast
      rfl
    have hcast : StrictMono (Int.cast : Int → ℚ) := Int.cast_strictMono
    rw [hcompare, ← cmp_eq_compare, ← cmp_eq_compare, ← hcast.cmp_map_eq, hsigned, hscaled,
      cmp_mul_pos_right hpos]

/-- The exact value of a finite number. -/
def value? : Number → Option ℚ
  | .int k => some k
  | .double x => x.value?

theorem compareInt?_of_value {n : Number} {q : ℚ} (h : n.value? = some q) (k : Int) :
    n.compareInt? k = some (compare q k) := by
  cases n with
  | int n =>
    obtain rfl := Option.some.inj h
    have hcast : StrictMono (Int.cast : Int → ℚ) := Int.cast_strictMono
    rw [compareInt?_int, ← cmp_eq_compare, ← cmp_eq_compare, hcast.cmp_map_eq]
  | double x => exact compareInt?_value h k

/-- What is not a number is neither below zero nor above. -/
def IsNonneg : Number → Prop
  | .int k => 0 ≤ k
  | .double x => x = .infinite false ∨ ∃ q, x.value? = some q ∧ 0 ≤ q

theorem atLeast_iff_of_compare {x : Number} {k : Int} {o : Ordering}
    (h : x.compareInt? k = some o) : x.atLeast k = true ↔ o ≠ .lt := by
  cases o <;> simp [atLeast, h]

theorem atLeast_iff_of_value {n : Number} {q : ℚ} (h : n.value? = some q) (k : Int) :
    n.atLeast k = true ↔ (k : ℚ) ≤ q := by
  rw [atLeast_iff_of_compare (compareInt?_of_value h k), compare_ge_iff_ge]

/-- A double holds a number: a whole one as near as doubles are. -/
def HeldAs (x : Number) (y : Double) : Prop :=
  match x with
  | .int k => ∃ q, y.value? = some q ∧ |q - k| * 2 ^ 53 ≤ |(k : ℚ)| ∧ (k.natAbs < 2 ^ 53 → q = k)
  | .double x => y = x

def IsTooLarge : Number → Prop
  | .int k => Double.overflow ≤ k.natAbs
  | .double _ => False

end Number

end DesignComponents
