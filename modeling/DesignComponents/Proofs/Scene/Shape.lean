import DesignComponents.Proofs.Json.Shape
import DesignComponents.Scene.Node

/-!
Scenes with fields of their types: at every node each field that is read is absent or as a design
file holds it. Identifiers may repeat or be missing, and instances may refer to anything.
-/

namespace DesignComponents

namespace Shape

def color : Shape := record [("r", unit), ("g", unit), ("b", unit), ("a", unit)]

def paint : Shape :=
  record [("type", text), ("visible", flag), ("opacity", number), ("color", color)]

def offset : Shape := record [("x", number), ("y", number)]

def effect : Shape :=
  record [("type", text), ("visible", flag), ("offset", offset), ("radius", number),
    ("spread", number), ("color", color)]

def box : Shape := record [("width", number), ("height", number)]

def typeStyle : Shape :=
  record [("fontFamily", text), ("fontSize", number), ("fontWeight", number),
    ("lineHeightPx", number), ("letterSpacing", number), ("textAlignHorizontal", text)]

def propertyValue : Shape := record [("type", text)]

def propertyDefinition : Shape := record [("type", text), ("variantOptions", listOf text)]

def nodeFields : List (String × Shape) :=
  [("id", text), ("name", text), ("type", text), ("characters", text), ("componentId", text),
   ("componentProperties", tableOf propertyValue),
   ("componentPropertyDefinitions", tableOf propertyDefinition),
   ("explicitVariableModes", tableOf any), ("children", listOf any),
   ("absoluteBoundingBox", orNull box), ("layoutMode", text), ("layoutWrap", text),
   ("primaryAxisAlignItems", text), ("counterAxisAlignItems", text), ("itemSpacing", number),
   ("paddingTop", number), ("paddingRight", number), ("paddingBottom", number),
   ("paddingLeft", number), ("fills", listOf paint), ("strokes", listOf paint),
   ("strokeWeight", number), ("rectangleCornerRadii", listOf number), ("cornerRadius", number),
   ("effects", listOf effect), ("opacity", number), ("style", typeStyle)]

def node : Shape := record nodeFields

mutual

/-- A node all of whose nodes below have the shape of nodes. -/
def scene : Shape
  | .obj fs => node (.obj fs) && scenesIn fs
  | _ => false

def scenesIn : List (String × Json) → Bool
  | [] => true
  | (name, v) :: fs => if name = "children" then scenesOf v else scenesIn fs

def scenesOf : Json → Bool
  | .arr xs => scenes xs
  | _ => false

def scenes : List Json → Bool
  | [] => true
  | x :: xs => scene x && scenes xs

end

theorem scenes_iff {xs : List Json} : scenes xs = true ↔ ∀ x ∈ xs, scene x = true := by
  induction xs with
  | nil => simp [scenes]
  | cons x xs ih => simp [scenes, ih]

theorem node_of_scene {v : Json} (h : scene v = true) : node v = true := by
  cases v with
  | obj fs => exact (Bool.and_eq_true_iff.1 h).1
  | _ => simp [scene] at h

end Shape

/-- A node with fields of their types, of any document or of none. -/
def Node.IsScene (n : Node) : Prop := ∃ place v, n = ofJson place v ∧ Shape.scene v = true

namespace Node

variable {n : Node}

theorem IsScene.node (h : n.IsScene) : Shape.node n.value = true := by
  obtain ⟨place, v, rfl, hv⟩ := h
  rw [value_ofJson]
  exact Shape.node_of_scene hv

/-- The text of a field, empty if there is none. -/
def fieldText (n : Node) (field : String) : String :=
  match n.value.lookup? field with
  | some (.str s) => s
  | _ => ""

theorem fieldText_of_get {field : String} {s : String} (h : n.value.get field = .ok (.str s)) :
    n.fieldText field = s := by
  have h := Json.get_eq_ok h
  rw [fieldText]
  cases hfield : n.value.lookup? field with
  | none => simp [hfield] at h
  | some v =>
    obtain rfl : v = .str s := by simpa [hfield] using h
    rfl

theorem fieldText_of_get_null {field : String} (h : n.value.get field = .ok .null) :
    n.fieldText field = "" := by
  have h := Json.get_eq_ok h
  rw [fieldText]
  cases hfield : n.value.lookup? field with
  | none => rfl
  | some v =>
    obtain rfl : v = .null := by simpa [hfield] using h
    rfl

theorem isText_iff {field s : String} {v : Json} (h : n.value.get field = .ok v) (hs : s ≠ "") :
    v.isText s = true ↔ n.fieldText field = s := by
  obtain rfl := Json.get_eq_ok h
  rw [fieldText]
  cases n.value.lookup? field with
  | none => simp [Json.isText, hs.symm]
  | some v => cases v <;> simp [Json.isText, hs.symm]

theorem getOr_text {fields : List (String × Shape)} (field : String)
    (hn : Shape.record fields n.value = true) (hs : fields.lookup field = some Shape.text) :
    n.value.getOr field (.str "") = .ok (.str (n.fieldText field)) := by
  have hyields : Yields (n.value.getOr field (.str "")) fun v => Shape.text v = true :=
    Shape.record_getOr field hn hs rfl
  obtain ⟨v, hv, hshape⟩ := hyields
  obtain ⟨s, rfl⟩ := Shape.exists_of_text hshape
  have hs := Json.getOr_eq_ok hv
  rw [hv, fieldText]
  cases hlookup : n.value.lookup? field with
  | none =>
    obtain rfl : "" = s := by simpa [hlookup] using hs
    rfl
  | some v =>
    obtain rfl : v = .str s := by simpa [hlookup] using hs
    rfl

theorem IsScene.getOr_text (hn : n.IsScene) (field : String)
    (hs : Shape.nodeFields.lookup field = some Shape.text) :
    n.value.getOr field (.str "") = .ok (.str (n.fieldText field)) :=
  Node.getOr_text field hn.node hs

/-- What is part of a document has its children there. -/
theorem mem_ofElements {place : Option Place} {i : Nat} {xs : List Json}
    (h : ∀ x ∈ xs, Shape.scene x = true) (hn : n ∈ ofElements place i xs) :
    n.IsScene ∧ (place.isSome → n.place.isSome) := by
  induction xs generalizing i with
  | nil => simp [ofElements] at hn
  | cons x xs ih =>
    rcases List.mem_cons.1 hn with rfl | hn
    · exact ⟨⟨_, x, rfl, h x (.head _)⟩, by simp [place_ofJson, extend]⟩
    · exact ih (fun y hy => h y (.tail _ hy)) hn

theorem mem_childrenIn {place : Option Place} {fs : List (String × Json)}
    (h : Shape.scenesIn fs = true) (hn : n ∈ childrenIn place fs) :
    n.IsScene ∧ (place.isSome → n.place.isSome) := by
  induction fs with
  | nil => simp [childrenIn] at hn
  | cons f fs ih =>
    by_cases hf : f.1 = "children"
    · cases hv : f.2 with
      | arr xs =>
        simp only [Shape.scenesIn, hf, if_true, hv, Shape.scenesOf] at h
        simp only [childrenIn, hf, if_true, hv, childrenOf] at hn
        exact mem_ofElements (Shape.scenes_iff.1 h) hn
      | _ => simp [Shape.scenesIn, hf, hv, Shape.scenesOf] at h
    · simp only [Shape.scenesIn, hf, if_false] at h
      simp only [childrenIn, hf, if_false] at hn
      exact ih h hn

theorem IsScene.mem_children {m : Node} (h : n.IsScene) (hm : m ∈ n.children) :
    m.IsScene ∧ (n.place.isSome → m.place.isSome) := by
  obtain ⟨place, v, rfl, hv⟩ := h
  cases v with
  | obj fs => exact mem_childrenIn (Bool.and_eq_true_iff.1 hv).2 hm
  | _ => simp [Shape.scene] at hv

end Node

end DesignComponents
