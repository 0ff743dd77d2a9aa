import DesignComponents.Fault

/-!
Repeated texts and lists, as far as a machine can hold them.
-/

namespace DesignComponents.Repetition

open Json (Kind)

def wordLimit : Nat := 0x8000000000000000

/-- What needs more bytes than this cannot be held. -/
def memoryLimit : Nat := 0x400000000

/-- A text or a list of the given length, repeated; `width` is the size of an element. -/
def check (kind : Kind) (width length : Nat) (times : Int) : Except Fault Unit :=
  if times < -(wordLimit : Int) ∨ (wordLimit : Int) ≤ times then .error .repetitionTooLarge
  else
    let total := length * times.toNat
    if kind = .str ∧ wordLimit ≤ total then .error .repetitionTooLong
    else if memoryLimit ≤ width * total then .error .outOfMemory
    else .ok ()

def ofValue (v : Json) (times : Int) : Except Fault Unit :=
  match v with
  | .str s => check .str 1 s.length times
  | .arr xs => check .arr 8 xs.length times
  | v => .error (.noProduct v.kind .int)

/-- A number of levels by which lines are indented, two blanks each. -/
def levels (v : Json) : Except Fault Int :=
  match v.number? with
  | some (.int n) => (check .str 1 2 n).map fun _ => n
  | _ => .error (.noProduct .str v.kind)

end DesignComponents.Repetition
