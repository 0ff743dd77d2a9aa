import DesignComponents.Proofs.Css.Unmarked
import DesignComponents.Proofs.Json.Regular

/-!
Styles are regular data. Their properties are distinct, and all values are texts but for the name
of a font, which is part of the node.
-/

namespace DesignComponents.Css

/-- All values are regular. -/
def HasRegularValues (css : Css) : Prop := ∀ e ∈ css, e.2.IsRegular

variable {node : Json} {css css' : Css}

namespace HasRegularValues

theorem nil : HasRegularValues [] := List.forall_mem_nil _

theorem append (h : HasRegularValues css) (h' : HasRegularValues css') :
    HasRegularValues (css ++ css') := List.forall_mem_append.2 ⟨h, h'⟩

theorem declare (name text : String) : HasRegularValues (declare name text) :=
  List.forall_mem_singleton.2 (.str text)

end HasRegularValues

theorem HasPlainValues.regular (h : HasPlainValues css) : HasRegularValues css := by
  intro e he
  obtain ⟨s, hs, -⟩ := h e he
  rw [hs]
  exact .str s

theorem declareLength_regular (name : String) (v : Json) :
    Returns (declareLength name v) HasRegularValues :=
  (declareLength_plain name v).mono fun _ => HasPlainValues.regular

theorem textAlign_regular (v : Json) : Returns (textAlign v) HasRegularValues := by
  unfold textAlign
  split
  · exact HasRegularValues.nil
  · split
    · exact HasRegularValues.declare _ _
    · exact (Returns.of_forall fun _ _ => trivial).map fun s _ => .declare _ _

theorem font_regular (h : node.IsRegular) : Returns (font node) HasRegularValues := by
  unfold font
  refine (h.get "style").bind fun style hstyle => ?_
  refine (hstyle.orEmpty.get "fontFamily").bind fun family hfamily => ?_
  refine Returns.step fun _ _ => (declareLength_regular _ _).bind fun _ hsize => ?_
  refine Returns.step fun _ _ => (declareWeight_plain _).bind fun _ hweight => ?_
  refine Returns.step fun _ _ => (declareLength_regular _ _).bind fun _ hline => ?_
  refine Returns.step fun _ _ => (declareLength_regular _ _).bind fun _ hspacing => ?_
  refine Returns.step fun _ _ => (textAlign_regular _).bind fun _ halign => ?_
  have hfamily : HasRegularValues (if family.isTruthy then [("font-family", family)] else []) := by
    split
    · exact List.forall_mem_singleton.2 hfamily
    · exact .nil
  exact ((((hfamily.append hsize).append hweight.regular).append hline).append hspacing).append
    halign

theorem Part.regular (h : node.IsRegular) (isText : Bool) (p : Part) :
    Returns (p.extract isText node) HasRegularValues := by
  cases p with
  | size => exact (size_plain node).mono fun _ => HasPlainValues.regular
  | layout => exact (layout_plain node).mono fun _ => HasPlainValues.regular
  | fill => exact (fill_plain node isText).mono fun _ => HasPlainValues.regular
  | border => exact (border_plain node).mono fun _ => HasPlainValues.regular
  | corners => exact (corners_plain node).mono fun _ => HasPlainValues.regular
  | shadows => exact (shadows_plain node).mono fun _ => HasPlainValues.regular
  | opacity => exact (opacity_plain node).mono fun _ => HasPlainValues.regular
  | font =>
    cases isText with
    | true => exact font_regular h
    | false => exact HasRegularValues.nil

theorem extract_regular (h : node.IsRegular) :
    Returns (extract node) fun css => Json.IsRegular (.obj css) := by
  refine Returns.of_forall fun css hcss => ?_
  obtain ⟨isText, isFlex, part, -, -, hpart, rfl, hfits⟩ := extract_fits hcss
  refine .obj (hfits.ordered.nodup (Part.nodup_names isText isFlex)) fun e he => ?_
  obtain ⟨p, -, he⟩ := List.mem_flatMap.1 he
  exact (p.regular h _).of_ok (hpart p) e he

end DesignComponents.Css
