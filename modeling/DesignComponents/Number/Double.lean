import DesignComponents.Number.Rounding

/-!
Binary floating point numbers of 53 significant digits, held exactly. Arithmetic is done on
whole numbers and rounded once, to the nearest number that can be held.
-/

namespace DesignComponents

/-- A finite number is `± significand · 2 ^ exponent`. -/
inductive Double
  | finite (negative : Bool) (significand : Nat) (exponent : Int)
  | infinite (negative : Bool)
  | nan
  deriving DecidableEq, Repr, Inhabited

namespace Double

/-- The least exponent, shared by zero and the numbers nearest to it. -/
def minExponent : Int := -1074

def maxExponent : Int := 971

def zero (negative : Bool) : Double := .finite negative 0 minExponent

/-- The exponent that leaves 53 binary digits before the point of `n / d`, if there are so many. -/
def exponentFor (n d : Nat) : Int :=
  let e : Int := (n.log2 : Int) - (d.log2 : Int) - 52
  let (a, b) := scaleTwo n d (-e)
  max (if a < Nat.pow 2 52 * b then e - 1 else e) minExponent

/-- The number nearest to `n / d`; what is too large becomes infinite. -/
def ofRatio (negative : Bool) (n d : Nat) : Double :=
  if n = 0 then zero negative
  else
    let e := exponentFor n d
    let (a, b) := scaleTwo n d (-e)
    let m := roundDiv a b
    let (m, e) := if m = Nat.pow 2 53 then (Nat.pow 2 52, e + 1) else (m, e)
    if maxExponent < e then .infinite negative else .finite negative m e

def ofDecimal (negative : Bool) (digits : Nat) (e : Int) : Double :=
  if digits = 0 then zero negative
  else if 310 < e then .infinite negative
  else if e + digits.log2 < -400 then zero negative
  else
    let (n, d) := scaleTen digits 1 e
    ofRatio negative n d

def ofInt? (n : Int) : Option Double :=
  match ofRatio (n < 0) n.natAbs 1 with
  | .infinite _ => none
  | x => some x

def magnitude (significand : Nat) (exponent : Int) : Nat × Nat :=
  scaleTwo significand 1 exponent

def mul : Double → Double → Double
  | .finite s m e, .finite s' m' e' =>
    let (n, d) := magnitude (m * m') (e + e')
    ofRatio (s != s') n d
  | .infinite s, .infinite s' => .infinite (s != s')
  | .infinite s, .finite s' m _ => if m = 0 then .nan else .infinite (s != s')
  | .finite s m _, .infinite s' => if m = 0 then .nan else .infinite (s != s')
  | .nan, _ | _, .nan => .nan

def isZero : Double → Bool
  | .finite _ m _ => m == 0
  | _ => false

/-- Round to `places` decimal places, a tie going to the even digit. -/
def roundPlaces (places : Nat) : Double → Double
  | .finite s m e =>
    let (n, d) := magnitude m e
    ofRatio s (roundDiv (n * Nat.pow 10 places) d) (Nat.pow 10 places)
  | x => x

def roundInt? : Double → Option Int
  | .finite s m e =>
    let (n, d) := magnitude m e
    let k : Int := roundDiv n d
    some (if s then -k else k)
  | _ => none

@[simp] theorem isZero_zero (s : Bool) : (zero s).isZero = true := rfl
@[simp] theorem roundInt?_nan : roundInt? .nan = none := rfl
@[simp] theorem roundInt?_infinite (s : Bool) : roundInt? (.infinite s) = none := rfl
@[simp] theorem roundPlaces_nan (k : Nat) : roundPlaces k .nan = .nan := rfl
@[simp] theorem roundPlaces_infinite (k : Nat) (s : Bool) :
    roundPlaces k (.infinite s) = .infinite s := rfl
@[simp] theorem ofRatio_zero (s : Bool) (d : Nat) : ofRatio s 0 d = zero s := by simp [ofRatio]

end Double

end DesignComponents
