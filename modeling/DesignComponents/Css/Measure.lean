import DesignComponents.Json.Access

/-!
Numbers in style values: rounded to two places, then written with six significant digits.
-/

namespace DesignComponents.Css

/-- Whole numbers need no rounding but have to fit into a double. -/
def rounded : Number → Except Fault Double
  | .int n =>
    match Double.ofInt? n with
    | some x => .ok x
    | none => .error .numberTooLarge
  | .double x => .ok (x.roundPlaces 2)

def measure (v : Json) : Except Fault String :=
  match v.number? with
  | some n => (rounded n).map Double.measureText
  | none => .error (.notRounded v.kind)

def length (v : Json) : Except Fault String :=
  (measure v).map (· ++ "px")

def lengths : List Json → Except Fault (List String)
  | [] => .ok []
  | v :: vs => do
    let t ← length v
    let ts ← lengths vs
    pure (t :: ts)

def weight (v : Json) : Except Fault String :=
  match v.number? with
  | some n =>
    match n.toDouble? with
    | some x => .ok x.measureText
    | none => .error .numberTooLarge
  | none => if v.isString then .error .textMeasured else .error (.notMeasured v.kind)

@[simp] theorem lengths_nil : lengths [] = .ok [] := rfl

end DesignComponents.Css
