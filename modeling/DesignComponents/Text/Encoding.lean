/-!
Encodings of data that is sent without saying which one it has. Data begins with plain characters,
so the zero bytes among the first four tell how wide the units are and which way round they stand.
-/

namespace DesignComponents

inductive ByteOrder
  | high
  | low
  deriving DecidableEq, Repr

inductive Encoding
  | utf8
  /-- The text follows a byte order mark. -/
  | utf8Marked
  | utf16 (order : ByteOrder)
  | utf32 (order : ByteOrder)
  deriving DecidableEq, Repr

namespace Encoding

/-- The encoding that the first four bytes speak for, where `true` stands for a zero byte. -/
def ofZeros? : List Bool → Option Encoding
  | [false, false, false, false] => some .utf8
  | [true, false, true, false] => some (.utf16 .high)
  | [false, true, false, true] => some (.utf16 .low)
  | [true, true, true, false] => some (.utf32 .high)
  | [false, true, true, true] => some (.utf32 .low)
  | _ => none

def guess? (bytes : List UInt8) : Option Encoding :=
  if [0xEF, 0xBB, 0xBF].isPrefixOf bytes then some .utf8Marked
  else ofZeros? ((bytes.take 4).map (· == 0))

def joined (order : ByteOrder) (base a b : Nat) : Nat :=
  match order with
  | .high => a * base + b
  | .low => b * base + a

/-- Bytes or units taken two by two; none may be left over. -/
def pairUp? (order : ByteOrder) (base : Nat) : List Nat → Option (List Nat)
  | [] => some []
  | [_] => none
  | a :: b :: rest => (pairUp? order base rest).map (joined order base a b :: ·)

def char? (n : Nat) : Option Char := if n.isValidChar then some (Char.ofNat n) else none

/-- The characters of units of sixteen bits. Units without a partner stand for none. -/
def ofUnits? : List Nat → Option (List Char)
  | [] => some []
  | hi :: rest =>
    if 0xD800 ≤ hi ∧ hi < 0xDC00 then
      match rest with
      | lo :: rest =>
        if 0xDC00 ≤ lo ∧ lo < 0xE000 then
          (ofUnits? rest).map (Char.ofNat (0x10000 + (hi - 0xD800) * 0x400 + (lo - 0xDC00)) :: ·)
        else none
      | [] => none
    else
      match char? hi with
      | some c => (ofUnits? rest).map (c :: ·)
      | none => none

def decode16? (order : ByteOrder) (bytes : List Nat) : Option (List Char) := do
  ofUnits? (← pairUp? order 0x100 bytes)

def decode32? (order : ByteOrder) (bytes : List Nat) : Option (List Char) := do
  let units ← pairUp? order 0x100 bytes
  (← pairUp? order 0x10000 units).mapM char?

/-- The text that is meant by one which was read as UTF-8. If nothing else makes sense, it is that
text itself. -/
def intended (text : String) : String :=
  let bytes := text.toUTF8.toList
  let decoded := match guess? bytes with
    | some .utf8Marked => some (text.toList.drop 1)
    | some (.utf16 order) => decode16? order (bytes.map UInt8.toNat)
    | some (.utf32 order) => decode32? order (bytes.map UInt8.toNat)
    | some .utf8 | none => none
  (decoded.map String.ofList).getD text

@[simp] theorem char?_toNat (c : Char) : char? c.toNat = some c := by
  have h : c.toNat.isValidChar := c.valid
  simp [char?, h]

@[simp] theorem pairUp?_nil (order : ByteOrder) (base : Nat) :
    pairUp? order base [] = some [] := rfl

end Encoding

end DesignComponents
