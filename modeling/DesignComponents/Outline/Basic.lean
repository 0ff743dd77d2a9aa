import DesignComponents.Property.Schema
import DesignComponents.Css.Extract
import DesignComponents.Tree
import DesignComponents.Json.Writer

/-!
Outlines: what is known of a scene node and of the nodes walked below it, as data and as lines.
-/

namespace DesignComponents

structure ComponentRef where
  name : Json
  id : Json
  key : Json

/-- What is known of one node; which parts there are depends on its kind. -/
structure Facts where
  name : Json
  id : Json
  css : Option Css := none
  instanceOf : Option ComponentRef := none
  propertyValues : Option (OrderedMap String String) := none
  propertySchema : Option Schema := none
  modes : Option (OrderedMap Key Json) := none

abbrev Outline := Tree Facts

structure Caption where
  name : Json
  css : Option Json

namespace Caption

def line (c : Caption) (level : Int) : String :=
  "".pushn ' ' (2 * level.toNat) ++ "-" ++ c.name.display ++
    (match c.css with
     | some css => css.compact
     | none => "")

mutual

def lines (level : Int) : Tree Caption → List String
  | .node c ts => c.line level :: linesAll (level + 1) ts

def linesAll (level : Int) : List (Tree Caption) → List String
  | [] => []
  | t :: ts => lines level t ++ linesAll level ts

end

def text (t : Tree Caption) (level : Int) : String := "\n".intercalate (lines level t)

end Caption

namespace ComponentRef

def toJson (r : ComponentRef) : Json := .obj [("name", r.name), ("id", r.id), ("key", r.key)]

end ComponentRef

namespace Facts

/-- A field that is there only if something is known. -/
def known (name : String) (v : Option Json) : List (String × Json) :=
  match v with
  | some v => [(name, v)]
  | none => []

def valuesJson (m : OrderedMap String String) : Json := .obj (m.map fun p => (p.1, .str p.2))

def modesJson (m : OrderedMap Key Json) : Json := .obj (m.map fun p => (p.1.fieldName, p.2))

def toJson (f : Facts) (children : List Json) : Json :=
  .obj ([("name", f.name), ("id", f.id), ("children", .arr children)] ++
    known "css" (f.css.map .obj) ++
    known "instanceOf" (f.instanceOf.map ComponentRef.toJson) ++
    known "propertyValues" (f.propertyValues.map valuesJson) ++
    known "propertySchema" (f.propertySchema.map Schema.toJson) ++
    known "modes" (f.modes.map modesJson))

def caption (f : Facts) : Caption := ⟨f.name, f.css.map .obj⟩

@[simp] theorem known_none (name : String) : known name none = [] := rfl
@[simp] theorem known_some (name : String) (v : Json) : known name (some v) = [(name, v)] := rfl

end Facts

namespace Outline

mutual

def toJson : Outline → Json
  | .node f ts => f.toJson (toJsonAll ts)

def toJsonAll : List Outline → List Json
  | [] => []
  | t :: ts => toJson t :: toJsonAll ts

end

def text (o : Outline) (level : Int) : String := Caption.text (o.map Facts.caption) level

end Outline

end DesignComponents
