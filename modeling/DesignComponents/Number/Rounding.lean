/-!
Quotients of natural numbers rounded to the nearest whole number. A tie goes to the even
neighbour, so the rounding error is at most one half and has no bias.
-/

namespace DesignComponents

/-- The whole number nearest to `n / d`, the even one of two equally near. -/
def roundDiv (n d : Nat) : Nat :=
  if 2 * (n % d) < d then n / d
  else if d < 2 * (n % d) then n / d + 1
  else if n / d % 2 = 0 then n / d
  else n / d + 1

@[simp] theorem roundDiv_zero (d : Nat) (h : 0 < d) : roundDiv 0 d = 0 := by
  simp [roundDiv, h]

@[simp] theorem roundDiv_one (n : Nat) : roundDiv n 1 = n := by
  simp [roundDiv, Nat.mod_one]

def digitCount (n : Nat) : Nat :=
  if n = 0 then 0 else digitCount (n / 10) + 1
termination_by n
decreasing_by omega

@[simp] theorem digitCount_zero : digitCount 0 = 0 := by
  simp [digitCount]

theorem lt_pow_digitCount (n : Nat) : n < Nat.pow 10 (digitCount n) := by
  fun_induction digitCount n with
  | case1 => decide
  | case2 n h ih =>
    change n < Nat.pow 10 (digitCount (n / 10)) * 10
    omega

/-- `⌊log₁₀ (n / d)⌋` for positive `n` and `d`. -/
def decimalExponent (n d : Nat) : Int :=
  if d ≤ n then (digitCount (n / d) : Int) - 1 else -(digitCount ((d - 1) / n) : Int)

/-- The fraction `n / d` multiplied by `10 ^ e`, as numerator and denominator. -/
def scaleTen (n d : Nat) : Int → Nat × Nat
  | .ofNat e => (n * Nat.pow 10 e, d)
  | .negSucc e => (n, d * Nat.pow 10 (e + 1))

/-- The fraction `n / d` multiplied by `2 ^ e`, as numerator and denominator. -/
def scaleTwo (n d : Nat) : Int → Nat × Nat
  | .ofNat e => (n * Nat.pow 2 e, d)
  | .negSucc e => (n, d * Nat.pow 2 (e + 1))

end DesignComponents
