import DesignComponents.Markup.Basic
import DesignComponents.Outline.Visit

/-!
The presentation of a component: boxes for components, closed elements for instances, typography
for texts, and a bare element for all else.
-/

namespace DesignComponents

inductive Presentation
  | box (css : Option Css)
  | instance_ (name : Json) (css : Option Css)
  | typography (css : Option Css) (content : Json)
  | bare (type : Json)

namespace Markup

mutual

/-- The markup of presented nodes. Only a box shows what is below it. -/
def ofPresentation : Tree Presentation → Markup
  | .node (.box css) ts => .box (.str "Box") css (ofPresentations ts)
  | .node (.instance_ name css) _ => .leaf name css
  | .node (.typography css content) _ => .box (.str "Typography") css [.text content]
  | .node (.bare type) _ => .leaf type (some [])

def ofPresentations : List (Tree Presentation) → List Markup
  | [] => []
  | t :: ts => ofPresentation t :: ofPresentations ts

end

end Markup

namespace Document

def present (d : Document) (n : Node) : Traced Presentation := do
  match ← n.kind with
  | .component => do
    let css ← (d.css n).soft
    let _ ← (← n.value.get "children").elementsOrNone
    pure (.box css)
  | .instance_ => do
    let css ← (d.css n).soft
    pure (.instance_ (← n.value.getOr "name" (.str "")) css)
  | .text => do
    let css ← (d.css n).soft
    pure (.typography css (← n.value.getOr "characters" (.str "")))
  | _ => pure (.bare (← n.value.getOr "type" (.str "")))

def showsChildren (x : Traced Presentation) : Bool :=
  match x.result with
  | .ok (.box _) => true
  | _ => false

mutual

def presentAll (d : Document) : Node → Tree (Traced Presentation)
  | .node site children =>
    let x := d.present (.node site children)
    .node x (if showsChildren x then presentBelow d children else [])

def presentBelow (d : Document) : List Node → List (Tree (Traced Presentation))
  | [] => []
  | n :: ns => presentAll d n :: presentBelow d ns

end

def convert (d : Document) (n : Node) : Traced Markup :=
  Markup.ofPresentation <$> Traced.settle (d.presentAll n)

end Document

end DesignComponents
