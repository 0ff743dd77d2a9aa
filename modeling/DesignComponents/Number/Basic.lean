import DesignComponents.Number.Decimal

/-!
Numbers as data holds them: whole numbers of any size, and doubles. Comparisons between the two
are exact.
-/

namespace DesignComponents

inductive Number
  | int (n : Int)
  | double (x : Double)
  deriving DecidableEq, Repr, Inhabited

namespace Double

def fraction? : Double → Option (Int × Nat)
  | .finite s m e =>
    let (n, d) := magnitude m e
    some (if s then -(n : Int) else n, d)
  | _ => none

end Double

namespace Number

/-- Whole numbers with more decimal digits are neither read nor written as such. -/
def digitLimit : Nat := 4300

def isZero : Number → Bool
  | .int n => n == 0
  | .double x => x.isZero

/-- How a number compares with a whole one; what is not a number compares with none. -/
def compareInt? (x : Number) (k : Int) : Option Ordering :=
  match x with
  | .int n => some (compare n k)
  | .double .nan => none
  | .double (.infinite s) => some (if s then .lt else .gt)
  | .double x@(.finite ..) => x.fraction?.map fun (n, d) => compare n (k * d)

def lessThan (x : Number) (k : Int) : Bool := x.compareInt? k == some .lt

def atLeast (x : Number) (k : Int) : Bool :=
  match x.compareInt? k with
  | some .lt | none => false
  | _ => true

def same : Number → Number → Bool
  | .int a, .int b => a == b
  | .int a, .double x => (Number.double x).compareInt? a == some .eq
  | .double x, .int a => (Number.double x).compareInt? a == some .eq
  | .double x, .double y => x == y || x.isZero && y.isZero

def toDouble? : Number → Option Double
  | .int n => Double.ofInt? n
  | .double x => some x

def plainText : Number → String
  | .int n => toString n
  | .double x => x.plainText

def dataText : Number → String
  | .int n => toString n
  | .double x => x.dataText

@[simp] theorem same_int (a b : Int) : same (.int a) (.int b) = (a == b) := rfl

@[simp] theorem same_self (x : Number) : x.same x = true := by
  cases x <;> simp [same]

@[simp] theorem compareInt?_int (n k : Int) : compareInt? (.int n) k = some (compare n k) := rfl
@[simp] theorem compareInt?_nan (k : Int) : compareInt? (.double .nan) k = none := rfl

end Number

end DesignComponents
