import DesignComponents.Scene.Kind
import DesignComponents.Tree

/-!
Scenes as trees of nodes. A node knows its place in the document it came from, so that equal
nodes at different places, or from elsewhere, are told apart.
-/

namespace DesignComponents

/-- Child numbers from the root of a document down. -/
abbrev Place := List Nat

/-- The data of a node, and its place if it is part of a document. -/
structure Site where
  value : Json
  place : Option Place

abbrev Node := Tree Site

namespace Node

/-- What is no object has nothing below it. -/
def bare (v : Json) : Node := .node ⟨v, none⟩ []

def extend (place : Option Place) (i : Nat) : Option Place := place.map (· ++ [i])

mutual

/-- A node with all that its children run through. -/
def ofJson (place : Option Place) : Json → Node
  | .obj fs => .node ⟨.obj fs, place⟩ (childrenIn place fs)
  | v => .node ⟨v, place⟩ []

def childrenIn (place : Option Place) : List (String × Json) → List Node
  | [] => []
  | (name, v) :: fs => if name = "children" then childrenOf place v else childrenIn place fs

def childrenOf (place : Option Place) : Json → List Node
  | .arr xs => ofElements place 0 xs
  | .str s => s.toList.map fun c => bare (.str (String.singleton c))
  | .obj fs => fs.map fun f => bare (.str f.1)
  | _ => []

def ofElements (place : Option Place) (i : Nat) : List Json → List Node
  | [] => []
  | x :: xs => ofJson (extend place i) x :: ofElements place (i + 1) xs

end

def foreign (v : Json) : Node := ofJson none v

def value (n : Node) : Json := n.label.value

def place (n : Node) : Option Place := n.label.place

def kind (n : Node) : Except Fault NodeKind := NodeKind.ofNode n.value

@[simp] theorem value_node (s : Site) (ns : List Node) : value (.node s ns) = s.value := rfl
@[simp] theorem place_node (s : Site) (ns : List Node) : place (.node s ns) = s.place := rfl

theorem value_ofJson (place : Option Place) (v : Json) : (ofJson place v).value = v := by
  cases v <;> rfl

theorem place_ofJson (p : Option Place) (v : Json) : (ofJson p v).place = p := by
  cases v <;> rfl

end Node

end DesignComponents
