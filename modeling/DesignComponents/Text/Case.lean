import DesignComponents.Text.Case.Upper
import DesignComponents.Text.Case.Lower
import DesignComponents.Text.Case.Context

/-!
Upper and lower case of characters and words.
-/

namespace DesignComponents

def upperChar (c : Char) : List Char := upperCase.apply c

def lowerChar (c : Char) : List Char := lowerCase.apply c

/-- A letter with case comes first, marks that do not end a word aside. -/
def startsCased (cs : List Char) : Bool :=
  match cs.dropWhile caseIgnorableRanges.contains with
  | c :: _ => casedRanges.contains c
  | [] => false

/-- Lower case of a word; `before` holds what precedes it, the nearest character first. A capital
sigma after a letter and before none takes its final form. -/
def lowerAfter (before : List Char) : List Char → List Char
  | [] => []
  | 'Σ' :: rest =>
    (if startsCased before && !startsCased rest then 'ς' else 'σ') ::
      lowerAfter ('Σ' :: before) rest
  | c :: rest => lowerChar c ++ lowerAfter (c :: before) rest

def lower (s : String) : String := String.ofList (lowerAfter [] s.toList)

def upperFirst : List Char → List Char
  | [] => []
  | c :: rest => upperChar c ++ rest

def lowerFirst : List Char → List Char
  | [] => []
  | c :: rest => lowerChar c ++ rest

@[simp] theorem upperFirst_nil : upperFirst [] = [] := rfl
@[simp] theorem lowerFirst_nil : lowerFirst [] = [] := rfl

theorem upperFirst_cons (c : Char) (rest : List Char) :
    upperFirst (c :: rest) = upperChar c ++ rest := rfl

theorem lowerFirst_cons (c : Char) (rest : List Char) :
    lowerFirst (c :: rest) = lowerChar c ++ rest := rfl

end DesignComponents
