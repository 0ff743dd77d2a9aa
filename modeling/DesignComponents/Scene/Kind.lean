import DesignComponents.Json.Access

/-!
Kinds of scene nodes, and how each kind is treated when a scene is walked.
-/

namespace DesignComponents

inductive NodeKind
  | instance_
  | component
  | componentSet
  | container
  | text
  | vector
  | other
  deriving DecidableEq, Repr

namespace NodeKind

def name : NodeKind → String
  | .instance_ => "INSTANCE"
  | .component => "COMPONENT"
  | .componentSet => "COMPONENT_SET"
  | .container => "CONTAINER"
  | .text => "TEXT"
  | .vector => "VECTOR"
  | .other => "OTHER"

def types : List (String × NodeKind) :=
  [("INSTANCE", .instance_), ("COMPONENT", .component), ("COMPONENT_SET", .componentSet),
   ("FRAME", .container), ("GROUP", .container), ("SECTION", .container), ("TEXT", .text),
   ("VECTOR", .vector), ("BOOLEAN_OPERATION", .vector), ("STAR", .vector), ("LINE", .vector),
   ("ELLIPSE", .vector), ("POLYGON", .vector), ("RECTANGLE", .vector)]

def ofType (type : String) : NodeKind := (types.lookup type).getD .other

def ofNode (node : Json) : Except Fault NodeKind := do
  match ← (← node.getOr "type" (.str "")).key with
  | .str type => pure (ofType type)
  | _ => pure .other

end NodeKind

structure NodePolicy where
  kind : NodeKind
  extractsCss : Bool
  shortCircuits : Bool
  visitsChildren : Bool
  firstChildOnly : Bool
  deriving DecidableEq, Repr

def NodeKind.policy (k : NodeKind) : NodePolicy :=
  match k with
  | .instance_ | .container => ⟨k, true, false, true, false⟩
  | .component | .text => ⟨k, false, false, true, false⟩
  | .componentSet => ⟨k, false, false, true, true⟩
  | .vector => ⟨k, true, true, false, false⟩
  | .other => ⟨k, false, false, false, false⟩

@[simp] theorem NodeKind.policy_kind (k : NodeKind) : k.policy.kind = k := by cases k <;> rfl

namespace NodePolicy

def ofNode (node : Json) : Except Fault NodePolicy := (NodeKind.ofNode node).map NodeKind.policy

/-- A node is walked no further if its policy says so or it has no children. -/
def stops (p : NodePolicy) : Bool := p.shortCircuits || !p.visitsChildren

end NodePolicy

def hasChildren (node : Json) : Except Fault Bool := (node.get "children").map Json.isTruthy

end DesignComponents
