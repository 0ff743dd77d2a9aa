import DesignComponents.Css.Extract
import DesignComponents.Proofs.Outcome

/-!
The parts of a style. Each is made from fields of its own and declares properties of its own.
-/

namespace DesignComponents.Css

/-- The parts, in the order in which a style is put together. -/
inductive Part
  | size
  | layout
  | fill
  | border
  | corners
  | shadows
  | opacity
  | font
  deriving DecidableEq

namespace Part

def all : List Part := [.size, .layout, .fill, .border, .corners, .shadows, .opacity, .font]

def extract (isText : Bool) (node : Json) : Part → Except Fault Css
  | .size => Css.size node
  | .layout => Css.layout node
  | .fill => Css.fill node isText
  | .border => Css.border node
  | .corners => Css.corners node
  | .shadows => Css.shadows node
  | .opacity => Css.opacity node
  | .font => if isText then Css.font node else pure []

/-- How the children of a node with a direction are laid out. -/
def layoutFields : List String :=
  ["layoutWrap", "primaryAxisAlignItems", "counterAxisAlignItems", "itemSpacing", "paddingTop",
   "paddingRight", "paddingBottom", "paddingLeft"]

/-- The fields of a node that a part is made from. -/
def fields : Part → List String
  | .size => ["absoluteBoundingBox"]
  | .layout => "layoutMode" :: layoutFields
  | .fill => ["fills"]
  | .border => ["strokes", "strokeWeight"]
  | .corners => ["rectangleCornerRadii", "cornerRadius"]
  | .shadows => ["effects"]
  | .opacity => ["opacity"]
  | .font => ["style"]

/-- Other fields do not matter to a part. -/
theorem extract_congr (p : Part) (isText : Bool) {fs fs' : List (String × Json)}
    (h : ∀ name ∈ p.fields, fs.lookup name = fs'.lookup name) :
    p.extract isText (.obj fs) = p.extract isText (.obj fs') := by
  cases p <;> simp only [fields, layoutFields, List.forall_mem_cons, List.not_mem_nil,
    false_imp_iff, implies_true, and_true] at h
  case size => simp only [extract, Css.size, Json.get_obj, h]
  case layout =>
    simp only [extract, Css.layout, flex, padding, paddingOf, Json.get_obj, Json.getOr_obj, h]
  case fill => simp only [extract, Css.fill, Json.get_obj, h]
  case border => simp only [extract, Css.border, Json.get_obj, Json.getOr_obj, h]
  case corners => simp only [extract, Css.corners, Json.get_obj, h]
  case shadows => simp only [extract, Css.shadows, Json.get_obj, h]
  case opacity => simp only [extract, Css.opacity, Json.get_obj, h]
  case font => simp only [extract, Css.font, Json.get_obj, h]

end Part

theorem isText_getD {v : Option Json} {s : String} :
    (v.getD .null).isText s = true ↔ v = some (.str s) := by
  rcases v with _ | _ | _ | _ | t | _ | _ <;> simp [Json.isText]

/-- A whole number of pixels has no decimals. -/
theorem length_eight : length (.num (.int 8)) = .ok "8px" := by
  obtain ⟨x, hvalue, htext⟩ : ∃ x, Double.ofInt? 8 = some x ∧ x.measureText = "8" :=
    ⟨.finite false (2 ^ 52) (-49), rfl, by decide +kernel⟩
  simp [length, measure, Json.number?, rounded, hvalue, htext]

/-- A style is made of what the parts give, one after another. -/
theorem extract_eq_parts (node : Json) : extract node = node.get "type" >>= fun type =>
    List.flatten <$> Part.all.mapM (Part.extract (type.isText "TEXT") node) := by
  rw [extract]
  congr 1
  funext type
  cases type.isText "TEXT" <;>
    simp [Part.all, Part.extract, List.append_assoc, -pure_eq_ok]

/-- Nodes of the same type have the same style if all parts are the same. -/
theorem extract_congr {node node' : Json} (htype : node.get "type" = node'.get "type")
    (h : ∀ type, node.get "type" = .ok type →
      ∀ p, Part.extract (type.isText "TEXT") node p = Part.extract (type.isText "TEXT") node' p) :
    extract node = extract node' := by
  rw [extract_eq_parts, extract_eq_parts, ← htype]
  cases hnode : node.get "type" with
  | error e => rfl
  | ok type => rw [ok_bind, ok_bind, funext (h type hnode)]

theorem exists_of_mapM {ε α β : Type} {f : α → Except ε (List β)} {xs : List α}
    {yss : List (List β)} (h : xs.mapM f = .ok yss) :
    ∃ g : α → List β, (∀ x ∈ xs, f x = .ok (g x)) ∧ yss = xs.map g := by
  refine ⟨fun x => (f x).toOption.getD [], ?_⟩
  induction xs generalizing yss with
  | nil => exact ⟨List.forall_mem_nil _, (Except.ok.inj h).symm⟩
  | cons x xs ih =>
    rw [List.mapM_cons, bind_eq_ok] at h
    obtain ⟨ys, hx, h⟩ := h
    rw [bind_eq_ok] at h
    obtain ⟨rest, hrest, h⟩ := h
    obtain ⟨hall, rfl⟩ := ih hrest
    obtain rfl := Except.ok.inj h
    have hown : (f x).toOption.getD [] = ys := by rw [hx]; rfl
    refine ⟨List.forall_mem_cons.2 ⟨hx.trans (congrArg Except.ok hown.symm), hall⟩, ?_⟩
    simp only [List.map_cons, hown]

theorem Part.mem_all (p : Part) : p ∈ all := by
  cases p <;> decide

theorem extract_eq_ok {node : Json} {css : Css} (h : extract node = .ok css) :
    ∃ type, node.get "type" = .ok type ∧ ∃ part : Part → Css,
      (∀ p, Part.extract (type.isText "TEXT") node p = .ok (part p)) ∧
      css = Part.all.flatMap part := by
  rw [extract_eq_parts, bind_eq_ok] at h
  obtain ⟨type, htype, h⟩ := h
  obtain ⟨parts, hparts, rfl⟩ := map_eq_ok.1 h
  obtain ⟨part, hall, rfl⟩ := exists_of_mapM hparts
  exact ⟨type, htype, part, fun p => hall p p.mem_all, rfl⟩

end DesignComponents.Css
