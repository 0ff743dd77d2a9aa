import DesignComponents.Number.Double

/-!
Decimal texts of numbers: a fixed count of significant digits, or the fewest digits that read
back as the same number, laid out positionally or with an exponent.
-/

namespace DesignComponents

/-- Digits `d₁d₂…` with the point after the first, times `10 ^ exponent`. -/
structure Decimal where
  digits : Nat
  exponent : Int
  deriving DecidableEq, Repr

namespace Decimal

def significant (count n d : Nat) : Decimal :=
  let x := decimalExponent n d
  let (a, b) := scaleTen n d (count - 1 - x)
  let k := roundDiv a b
  if k = Nat.pow 10 count then ⟨k / 10, x + 1⟩ else ⟨k, x⟩

/-- The nearer of the two neighbours of `x` on the grid of `count` digits that reads back, the
even one of two equally near. -/
def readsBack? (x : Double) (n d count : Nat) : Option Decimal :=
  let e := decimalExponent n d
  let (a, b) := scaleTen n d (count - 1 - e)
  let k := a / b
  let back (k : Nat) : Bool := Double.ofDecimal false k (e - (count - 1)) = x
  let low := if back k then some ⟨k, e⟩ else none
  if a % b = 0 then low
  else
    let high : Option Decimal :=
      if back (k + 1) then
        some (if k + 1 = Nat.pow 10 count then ⟨(k + 1) / 10, e + 1⟩ else ⟨k + 1, e⟩)
      else none
    match low, high with
    | some l, some h => some (if roundDiv a b = k then l else h)
    | some l, none => some l
    | none, h => h

/-- The fewest digits that read back as `x = n / d`, from `count` digits on. -/
def shortestFrom (x : Double) (n d : Nat) : Nat → Nat → Decimal
  | count, 0 => significant count n d
  | count, more + 1 =>
    match readsBack? x n d count with
    | some r => r
    | none => shortestFrom x n d (count + 1) more

/-- Seventeen digits always read back. -/
def shortest (m : Nat) (e : Int) : Decimal :=
  let (n, d) := Double.magnitude m e
  shortestFrom (.finite false m e) n d 1 16

end Decimal

/-- How digits are laid out: without an exponent from `10 ^ -4` up to below `10 ^ limit`. -/
structure Layout where
  limit : Int
  /-- Whole numbers written without an exponent end in `.0`. -/
  marksWhole : Bool
  nan : String
  infinity : String

namespace Layout

def trim (n : Nat) : Nat :=
  if h : 0 < n ∧ n % 10 = 0 then trim (n / 10) else n
termination_by n
decreasing_by omega

def zeros (n : Nat) : List Char := List.replicate n '0'

def exponentText (e : Int) : List Char :=
  let digits := (toString e.natAbs).toList
  'e' :: (if e < 0 then '-' else '+') :: (if digits.length < 2 then '0' :: digits else digits)

def positional (l : Layout) (ds : List Char) (e : Int) : List Char :=
  if e < 0 then '0' :: '.' :: zeros (-e - 1).toNat ++ ds
  else
    let whole := e.toNat + 1
    if ds.length ≤ whole then
      ds ++ zeros (whole - ds.length) ++ (if l.marksWhole then ['.', '0'] else [])
    else ds.take whole ++ '.' :: ds.drop whole

def scientific (ds : List Char) (e : Int) : List Char :=
  match ds with
  | [] => []
  | [d] => d :: exponentText e
  | d :: rest => d :: '.' :: rest ++ exponentText e

def write (l : Layout) (x : Decimal) : List Char :=
  let ds := (toString (trim x.digits)).toList
  if -4 ≤ x.exponent ∧ x.exponent < l.limit then l.positional ds x.exponent
  else scientific ds x.exponent

def signed (negative : Bool) (text : String) : String :=
  if negative then "-" ++ text else text

def text (l : Layout) (digits : Nat → Int → Decimal) : Double → String
  | .nan => l.nan
  | .infinite s => signed s l.infinity
  | .finite s m e =>
    signed s (String.ofList (if m = 0 then l.positional ['0'] 0 else l.write (digits m e)))

/-- Lengths and ratios have six significant digits. -/
def measure : Layout := ⟨6, false, "nan", "inf"⟩

/-- Numbers in texts have the fewest digits that read back, and a point. -/
def plain : Layout := ⟨16, true, "nan", "inf"⟩

/-- Numbers in data are plain but for the names of what is not finite. -/
def data : Layout := ⟨16, true, "NaN", "Infinity"⟩

end Layout

namespace Double

def measureText (x : Double) : String :=
  Layout.measure.text (fun m e => let (n, d) := magnitude m e; Decimal.significant 6 n d) x

def plainText (x : Double) : String := Layout.plain.text Decimal.shortest x

def dataText (x : Double) : String := Layout.data.text Decimal.shortest x

end Double

end DesignComponents
