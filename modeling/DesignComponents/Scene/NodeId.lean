import DesignComponents.Text.Blank
import DesignComponents.Text.Digit

/-!
Identifiers of nodes. In addresses a hyphen stands for the colon between two numbers.
-/

namespace DesignComponents.NodeId

def digits? (cs : List Char) : Option (List Char) :=
  match cs.takeWhile isDecimalDigit with
  | [] => none
  | _ => some (cs.dropWhile isDecimalDigit)

/-- Two numbers with a colon or hyphen between them, whatever comes behind. -/
def isPairFront (cs : List Char) : Bool :=
  match digits? cs with
  | some (':' :: rest) | some ('-' :: rest) => (digits? rest).isSome
  | _ => false

/-- An identifier begins with a pair of numbers; an `I` may precede. -/
def looksLikeId : List Char → Bool
  | 'I' :: cs => isPairFront cs
  | cs => isPairFront cs

def withColons (cs : List Char) : List Char := cs.map fun c => if c = '-' then ':' else c

def normalizeChars (cs : List Char) : List Char :=
  let cs := stripChars cs
  if looksLikeId cs && !cs.contains ':' then withColons cs else cs

def normalize (id : String) : String := String.ofList (normalizeChars id.toList)

@[simp] theorem normalize_toList (id : String) :
    (normalize id).toList = normalizeChars id.toList := by simp [normalize]

end DesignComponents.NodeId
