import DesignComponents.Json.Access

/-!
Variables of a file with their aliases resolved.
-/

namespace DesignComponents

structure VariableHead where
  name : Json
  resolvedType : Json
  description : Json

/-- A value that stands for itself, an alias that leads nowhere, or the variable an alias leads
to with its values by mode. -/
inductive Resolved
  | literal (v : Json)
  | unresolved
  | variable (head : VariableHead) (values : List (String × Resolved))

structure ResolvedCollection where
  name : Json
  modes : OrderedMap Key Json
  members : List Resolved

namespace VariableHead

def toFields (h : VariableHead) : List (String × Json) :=
  [("name", h.name)] ++ (if h.description.isTruthy then [("description", h.description)] else []) ++
    [("resolvedType", h.resolvedType)]

end VariableHead

namespace Resolved

mutual

def toJson : Resolved → Json
  | .literal v => v
  | .unresolved => .null
  | .variable head values => .obj (head.toFields ++ [("values", .obj (toFields values))])

def toFields : List (String × Resolved) → List (String × Json)
  | [] => []
  | (mode, v) :: rest => (mode, toJson v) :: toFields rest

end

end Resolved

namespace ResolvedCollection

def toJson (c : ResolvedCollection) : Json :=
  .obj [("name", c.name),
    ("modes", .obj (c.modes.map fun p => (p.1.fieldName, p.2))),
    ("variables", .arr (c.members.map Resolved.toJson))]

def dump (cs : List ResolvedCollection) : Json := .arr (cs.map toJson)

end ResolvedCollection

end DesignComponents
