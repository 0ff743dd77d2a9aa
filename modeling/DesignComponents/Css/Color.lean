import DesignComponents.Css.Measure
import DesignComponents.Repetition

/-!
Colours: six hexadecimal digits if nothing shines through, else channels and opacity.
-/

namespace DesignComponents.Css

def channel (v : Json) : Except Fault Int :=
  match v.number? with
  | some (.int n) => .ok (n * 255)
  | some (.double x) =>
    match (x.mul (.ofRatio false 255 1)).roundInt? with
    | some k => .ok k
    | none => .error (if x = .nan then .nanChannel else .infiniteChannel)
  | none =>
    match v with
    | .str _ | .arr _ => .error (.notRounded v.kind)
    | v => .error (.noProduct v.kind .int)

/-- The product of two numbers, in doubles unless both are whole. -/
def product : Number → Number → Except Fault Number
  | .int a, .int b => .ok (.int (a * b))
  | a, b =>
    match a.toDouble?, b.toDouble? with
    | some x, some y => .ok (.double (x.mul y))
    | _, _ => .error .numberTooLarge

/-- Texts and lists can be repeated, but then have no order among numbers. -/
def repetition (v : Json) (times : Number) (other : Fault) : Fault :=
  match times with
  | .int n =>
    if !Fault.isRepeatable v.kind then other
    else
      match Repetition.ofValue v n with
      | .ok _ => .noOrder ">=" v.kind
      | .error e => e
  | .double _ => other

/-- The opacity of a paint multiplies that of its colour. -/
def alpha (own : Json) (opacity : Json) : Except Fault Number :=
  match opacity with
  | .null =>
    match own.number? with
    | some a => .ok a
    | none => .error (.noOrder ">=" own.kind)
  | opacity =>
    let fault := Fault.noProduct opacity.kind own.kind
    match opacity.number?, own.number? with
    | some x, some y => product x y
    | some x, none => .error (repetition own x fault)
    | none, some y => .error (repetition opacity y fault)
    | none, none => .error fault

def upperHexDigit (n : Nat) : Char := "0123456789ABCDEF".toList.getD n '0'

def upperHex (n : Nat) : List Char :=
  if _h : n < 16 then [upperHexDigit n] else upperHex (n / 16) ++ [upperHexDigit (n % 16)]
termination_by n
decreasing_by omega

/-- At least two places, the sign being one. -/
def hexPair (k : Int) : List Char :=
  let digits := upperHex k.natAbs
  if k < 0 then '-' :: digits else if digits.length < 2 then '0' :: digits else digits

def decimal (k : Int) : Except Fault String :=
  if Number.digitLimit < (toString k.natAbs).length then .error .tooManyDigits
  else .ok (toString k)

def color (v : Json) (opacity : Json) : Except Fault String := do
  let r ← channel (← v.getOr "r" (.num (.int 0)))
  let g ← channel (← v.getOr "g" (.num (.int 0)))
  let b ← channel (← v.getOr "b" (.num (.int 0)))
  let a ← alpha (← v.getOr "a" (.num (.int 1))) opacity
  if a.atLeast 1 then
    pure (String.ofList ('#' :: hexPair r ++ hexPair g ++ hexPair b))
  else
    let r ← decimal r
    let g ← decimal g
    let b ← decimal b
    let t ← measure (.num a)
    pure ("rgba(" ++ r ++ ", " ++ g ++ ", " ++ b ++ ", " ++ t ++ ")")

end DesignComponents.Css
