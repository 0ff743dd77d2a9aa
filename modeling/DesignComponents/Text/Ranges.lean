/-!
Classes of characters given by ranges of code points.
-/

namespace DesignComponents

abbrev CharRanges := List (Nat × Nat)

namespace CharRanges

def contains (rs : CharRanges) (c : Char) : Bool :=
  rs.any fun r => r.1 ≤ c.toNat && c.toNat ≤ r.2

@[simp] theorem contains_nil (c : Char) : contains [] c = false := rfl

@[simp] theorem contains_cons (r : Nat × Nat) (rs : CharRanges) (c : Char) :
    contains (r :: rs) c = ((r.1 ≤ c.toNat && c.toNat ≤ r.2) || contains rs c) := rfl

end CharRanges

end DesignComponents
