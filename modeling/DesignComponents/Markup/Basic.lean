import DesignComponents.Css.Extract

/-!
Presentation trees: boxes with children, instances of components that stay closed, and texts.
-/

namespace DesignComponents

inductive Markup
  | text (content : Json)
  /-- An element that has no children to speak of. -/
  | leaf (type : Json) (css : Option Css)
  | box (type : Json) (css : Option Css) (children : List Markup)

namespace Markup

def elementFields (type : Json) (css : Option Css) : List (String × Json) :=
  ("type", type) ::
    (match css with
     | none => []
     | some css => [("css", .obj css)])

mutual

/-- The data of a tree. Text content has to be a text. -/
def toJson : Markup → Except Fault Json
  | .text content =>
    match content with
    | .str s => .ok (.str s)
    | v => .error (.noMember v.kind "to_dict")
  | .leaf type css => .ok (.obj (elementFields type css))
  | .box type css children => do
    let cs ← toJsonAll children
    pure (.obj (elementFields type css ++ [("children", .arr cs)]))

def toJsonAll : List Markup → Except Fault (List Json)
  | [] => .ok []
  | c :: cs => do
    let j ← toJson c
    let js ← toJsonAll cs
    pure (j :: js)

end

end Markup

end DesignComponents
