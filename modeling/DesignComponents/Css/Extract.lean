import DesignComponents.Css.Color
import DesignComponents.Text.Case

/-!
The style of a node, from the fields that describe how it looks. Each part of the style depends
on fields of its own, and the parts come in one fixed order.
-/

namespace DesignComponents

/-- Style properties in order. All values are texts but for the name of a font, which is taken as
it is. -/
abbrev Css := OrderedMap String Json

namespace Css

def declare (name : String) (text : String) : Css := [(name, .str text)]

/-- A length that is declared only if it is there and not zero. -/
def declareLength (name : String) (v : Json) : Except Fault Css :=
  if v.isTruthy then (length v).map (declare name) else .ok []

def size (node : Json) : Except Fault Css := do
  let box := (← node.get "absoluteBoundingBox").orEmpty
  let width ← declareLength "width" (← box.get "width")
  let height ← declareLength "height" (← box.get "height")
  pure (width ++ height)

inductive Axis
  | primary
  | counter
  deriving DecidableEq, Repr

def align (axis : Axis) (v : Json) : String :=
  if v.isText "CENTER" then "center"
  else if v.isText "MAX" then "flex-end"
  else if v.isText "SPACE_BETWEEN" && axis = .primary then "space-between"
  else if v.isText "BASELINE" && axis = .counter then "baseline"
  else "flex-start"

def paddingOf (node : Json) (name : String) : Except Fault Json := do
  let v ← node.getOr name (.num (.int 0))
  pure (if v.isTruthy then v else .num (.int 0))

def padding (node : Json) : Except Fault Css := do
  let top ← paddingOf node "paddingTop"
  let right ← paddingOf node "paddingRight"
  let bottom ← paddingOf node "paddingBottom"
  let left ← paddingOf node "paddingLeft"
  let sides := [top, right, bottom, left]
  if sides.any Json.isTruthy then
    pure (declare "padding" (" ".intercalate (← lengths sides)))
  else pure []

def flex (node : Json) (direction : String) : Except Fault Css := do
  let wrap := if (← node.get "layoutWrap").isText "WRAP" then declare "flex-wrap" "wrap" else []
  let justify := align .primary (← node.getOr "primaryAxisAlignItems" (.str "MIN"))
  let items := align .counter (← node.getOr "counterAxisAlignItems" (.str "MIN"))
  let gap ← declareLength "gap" (← node.get "itemSpacing")
  let padding ← padding node
  pure (declare "display" "flex" ++ declare "flex-direction" direction ++ wrap ++
    declare "justify-content" justify ++ declare "align-items" items ++ gap ++ padding)

def layout (node : Json) : Except Fault Css := do
  let mode ← node.get "layoutMode"
  if mode.isText "HORIZONTAL" then flex node "row"
  else if mode.isText "VERTICAL" then flex node "column"
  else pure []

def isVisible (v : Json) : Except Fault Bool :=
  (v.getOr "visible" (.bool true)).map Json.isTruthy

def firstSolid : List Json → Except Fault (Option Json)
  | [] => .ok none
  | p :: ps => do
    let visible ← isVisible p
    if visible && (← p.get "type").isText "SOLID" then pure (some p) else firstSolid ps

def solidPaint (paints : Json) : Except Fault (Option Json) := do
  firstSolid (← paints.elementsOrNone)

def paintColor (paint : Json) : Except Fault String := do
  color (← paint.getOr "color" (.obj [])) (← paint.get "opacity")

/-- The first fill colours the letters of a text and the ground of all else. -/
def fill (node : Json) (isText : Bool) : Except Fault Css := do
  match ← solidPaint (← node.get "fills") with
  | some paint => pure (declare (if isText then "color" else "background") (← paintColor paint))
  | none => pure []

def border (node : Json) : Except Fault Css := do
  match ← solidPaint (← node.get "strokes") with
  | some paint => do
    let width ← length (← node.getOr "strokeWeight" (.num (.int 1)))
    pure (declare "border" (width ++ " solid " ++ (← paintColor paint)))
  | none => pure []

/-- Radii of single corners, if one is not zero, else the radius of all corners. -/
def corners (node : Json) : Except Fault Css := do
  let radii ← (← node.get "rectangleCornerRadii").elementsOrNone
  if radii.any Json.isTruthy then
    pure (declare "border-radius" (" ".intercalate (← lengths radii)))
  else declareLength "border-radius" (← node.get "cornerRadius")

def shadow (effect : Json) (inset : Bool) : Except Fault String := do
  let offset ← effect.getOr "offset" (.obj [])
  let x ← length (← offset.getOr "x" (.num (.int 0)))
  let y ← length (← offset.getOr "y" (.num (.int 0)))
  let radius ← length (← effect.getOr "radius" (.num (.int 0)))
  let spread ← length (← effect.getOr "spread" (.num (.int 0)))
  let color ← color (← effect.getOr "color" (.obj [])) .null
  pure ((if inset then "inset " else "") ++ x ++ " " ++ y ++ " " ++ radius ++ " " ++ spread ++
    " " ++ color)

def shadowTexts : List Json → Except Fault (List String)
  | [] => .ok []
  | e :: es => do
    let visible ← isVisible e
    let type ← e.get "type"
    if visible && (type.isText "DROP_SHADOW" || type.isText "INNER_SHADOW") then
      let text ← shadow e (type.isText "INNER_SHADOW")
      let texts ← shadowTexts es
      pure (text :: texts)
    else shadowTexts es

def shadows (node : Json) : Except Fault Css := do
  match ← shadowTexts (← (← node.get "effects").elementsOrNone) with
  | [] => pure []
  | texts => pure (declare "box-shadow" (", ".intercalate texts))

def opacity (node : Json) : Except Fault Css := do
  let v ← node.get "opacity"
  match v, v.number? with
  | .null, _ => pure []
  | _, some n => if n.lessThan 1 then pure (declare "opacity" (← measure v)) else pure []
  | _, none => .error (.noOrder "<" v.kind)

def textAlign (v : Json) : Except Fault Css :=
  if !v.isTruthy || v.isText "LEFT" then .ok []
  else if v.isText "JUSTIFIED" then .ok (declare "text-align" "justify")
  else (v.text "lower").map fun s => declare "text-align" (lower s)

def declareWeight (v : Json) : Except Fault Css :=
  if v.isTruthy then (weight v).map (declare "font-weight") else .ok []

def font (node : Json) : Except Fault Css := do
  let style := (← node.get "style").orEmpty
  let family ← style.get "fontFamily"
  let size ← declareLength "font-size" (← style.get "fontSize")
  let weight ← declareWeight (← style.get "fontWeight")
  let lineHeight ← declareLength "line-height" (← style.get "lineHeightPx")
  let spacing ← declareLength "letter-spacing" (← style.get "letterSpacing")
  let align ← textAlign (← style.get "textAlignHorizontal")
  pure ((if family.isTruthy then [("font-family", family)] else []) ++ size ++ weight ++
    lineHeight ++ spacing ++ align)

def extract (node : Json) : Except Fault Css := do
  let isText := (← node.get "type").isText "TEXT"
  let size ← size node
  let layout ← layout node
  let fill ← fill node isText
  let border ← border node
  let corners ← corners node
  let shadows ← shadows node
  let opacity ← opacity node
  let font ← if isText then font node else pure []
  pure (size ++ layout ++ fill ++ border ++ corners ++ shadows ++ opacity ++ font)

def body (css : Css) : String :=
  "; ".intercalate (css.map fun p => p.1 ++ ": " ++ p.2.display)

def styleText (css : Css) : String :=
  if css.isEmpty then "" else "style=\"" ++ body css ++ "\""

@[simp] theorem styleText_nil : styleText [] = "" := rfl

theorem styleText_cons (p : String × Json) (css : Css) :
    styleText (p :: css) = "style=\"" ++ body (p :: css) ++ "\"" := rfl

end Css

end DesignComponents
