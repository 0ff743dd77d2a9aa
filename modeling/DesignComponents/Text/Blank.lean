import DesignComponents.Text.Ranges

/-!
Blank characters, and the texts without them.
-/

namespace DesignComponents

/-- Blanks, tabs and line ends of all kinds, and the four information separators. -/
def blankRanges : CharRanges :=
  [(0x9, 0xD), (0x1C, 0x20), (0x85, 0x85), (0xA0, 0xA0), (0x1680, 0x1680), (0x2000, 0x200A),
   (0x2028, 0x2029), (0x202F, 0x202F), (0x205F, 0x205F), (0x3000, 0x3000)]

def isBlank (c : Char) : Bool := blankRanges.contains c

def stripChars (cs : List Char) : List Char :=
  ((cs.dropWhile isBlank).reverse.dropWhile isBlank).reverse

def compactChars (cs : List Char) : List Char :=
  cs.filter fun c => !isBlank c

def strip (s : String) : String := String.ofList (stripChars s.toList)

@[simp] theorem stripChars_nil : stripChars [] = [] := rfl
@[simp] theorem compactChars_nil : compactChars [] = [] := rfl

@[simp] theorem compactChars_append (a b : List Char) :
    compactChars (a ++ b) = compactChars a ++ compactChars b := by
  simp [compactChars]

@[simp] theorem compactChars_compactChars (cs : List Char) :
    compactChars (compactChars cs) = compactChars cs := by
  simp [compactChars]

theorem not_isBlank_of_mem_compactChars {c : Char} {cs : List Char} (h : c ∈ compactChars cs) :
    isBlank c = false := by
  simpa using (List.mem_filter.1 h).2

@[simp] theorem strip_toList (s : String) : (strip s).toList = stripChars s.toList := by
  simp [strip]

end DesignComponents
