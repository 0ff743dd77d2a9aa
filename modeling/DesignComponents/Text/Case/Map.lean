/-!
Maps of single characters to texts, as runs of evenly spaced code points that all move by the
same distance and a short list of characters that become several.
-/

namespace DesignComponents

/-- Every `step`-th code point from `first` to `last` moves by `shift`. -/
structure CaseRun where
  first : Nat
  last : Nat
  step : Nat
  shift : Int
  deriving DecidableEq, Repr

def CaseRun.covers (r : CaseRun) (n : Nat) : Bool :=
  r.first ≤ n && n ≤ r.last && (n - r.first) % r.step == 0

structure CaseMap where
  runs : List CaseRun
  several : List (Nat × List Nat)

namespace CaseMap

def apply (m : CaseMap) (c : Char) : List Char :=
  match m.several.find? (·.1 == c.toNat) with
  | some (_, cs) => cs.map Char.ofNat
  | none =>
    match m.runs.find? (·.covers c.toNat) with
    | some r => [Char.ofNat (c.toNat + r.shift).toNat]
    | none => [c]

end CaseMap

end DesignComponents
