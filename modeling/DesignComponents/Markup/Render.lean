import DesignComponents.Markup.Basic
import DesignComponents.Component.Name

/-!
Presentation trees as indented lines of markup. Empty texts give no line, and an element without
lines between its tags is closed at once.
-/

namespace DesignComponents.Markup

/-- Two blanks per level; none below level zero. -/
def pad (indent : Int) : String := "".pushn ' ' (2 * indent.toNat)

def isEmptyText : Markup → Bool
  | .text v => v.isText ""
  | _ => false

def tagText (tag : String) (css : Option Css) : String :=
  match (css.map Css.styleText).getD "" with
  | "" => tag
  | style => tag ++ " " ++ style

def tagName (type : Json) : Except Fault String :=
  (type.text "split").map componentName

def closed (indent : Int) (tag : String) (css : Option Css) : List String :=
  [pad indent ++ "<" ++ tagText tag css ++ " />"]

mutual

/-- The lines of a tree, as far as the texts in it have no line ends of their own. -/
def lines (indent : Int) : Markup → Except Fault (List String)
  | .text content =>
    match content with
    | .str s => .ok [pad indent ++ s]
    | v => .error (.noMember v.kind "type")
  | .leaf type css => do
    let tag ← tagName type
    pure (closed indent tag css)
  | .box type css children => do
    let tag ← tagName type
    if children.all isEmptyText then pure (closed indent tag css)
    else
      let inner ← linesAll (indent + 1) children
      pure ([pad indent ++ "<" ++ tagText tag css ++ ">"] ++ inner ++
        [pad indent ++ "</" ++ tag ++ ">"])

def linesAll (indent : Int) : List Markup → Except Fault (List String)
  | [] => .ok []
  | c :: cs => do
    let own ← if isEmptyText c then pure [] else lines indent c
    let rest ← linesAll indent cs
    pure (own ++ rest)

end

def render (tree : Markup) (indent : Int) : Except Fault String :=
  (lines indent tree).map ("\n".intercalate ·)

end DesignComponents.Markup
