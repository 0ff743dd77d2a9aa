import DesignComponents.Proofs.Css.Parts
import DesignComponents.Proofs.OrderedMap
import Mathlib.Data.List.Nodup

/-!
The properties of a style: in which order they come, which come with others, on which nodes they
come at all, and from which fields the lengths are taken.
-/

namespace DesignComponents

namespace Json

/-- The value at the end of a path of fields. -/
def follow? : Json → List String → Option Json
  | v, [] => some v
  | v, name :: path => v.lookup? name >>= (follow? · path)

variable {v part x y : Json} {name name' : String}

theorem isTruthy_of_lookup? (h : v.lookup? name = some x) : v.isTruthy = true := by
  cases v with
  | obj fs =>
    cases fs with
    | nil => cases h
    | cons f fs => rfl
  | _ => cases h

theorem null_ne_of_isTruthy (h : x.isTruthy = true) : Json.null ≠ x := by
  rintro rfl
  cases h

theorem lookup?_iff_of_get (h : v.get name = .ok x) (hy : y.isTruthy = true) :
    v.lookup? name = some y ↔ x = y := by
  cases v with
  | obj fs =>
    obtain rfl := Except.ok.inj h
    cases hf : fs.lookup name with
    | none => simp [hf, null_ne_of_isTruthy hy]
    | some x => simp [hf]
  | _ => cases h

theorem follow?_iff_of_get (h : v.get name = .ok x) (hy : y.isTruthy = true) :
    v.follow? [name] = some y ↔ x = y := by
  simpa [follow?] using lookup?_iff_of_get h hy

theorem follow?_iff_of_get_orEmpty (h : v.get name = .ok part)
    (h' : part.orEmpty.get name' = .ok x) (hy : y.isTruthy = true) :
    v.follow? [name, name'] = some y ↔ x = y := by
  have hpart : v.follow? [name, name'] = some y ↔
      part.isTruthy = true ∧ part.lookup? name' = some y := by
    simp only [follow?, Option.bind_eq_bind, Option.bind_fun_some, Option.bind_eq_some_iff]
    constructor
    · rintro ⟨z, hz, hzy⟩
      have htrue := isTruthy_of_lookup? hzy
      obtain rfl := (lookup?_iff_of_get h htrue).1 hz
      exact ⟨htrue, hzy⟩
    · rintro ⟨htrue, hpy⟩
      exact ⟨part, (lookup?_iff_of_get h htrue).2 rfl, hpy⟩
  rw [hpart]
  by_cases htrue : part.isTruthy = true
  · rw [orEmpty, if_pos htrue] at h'
    simp [htrue, lookup?_iff_of_get h' hy]
  · rw [orEmpty, if_neg htrue] at h'
    obtain rfl := Except.ok.inj h'
    simpa [htrue] using null_ne_of_isTruthy hy

end Json

namespace Css

open OrderedMap (keys)

def flexNames : List String := ["display", "flex-direction", "justify-content", "align-items"]

def fontNames : List String :=
  ["font-family", "font-size", "font-weight", "line-height", "letter-spacing", "text-align"]

/-- All properties in their order, with the one that the first fill gives. -/
def order (ground : String) : List String :=
  ["width", "height", "display", "flex-direction", "flex-wrap", "justify-content", "align-items",
   "gap", "padding", ground, "border", "border-radius", "box-shadow", "opacity", "font-family",
   "font-size", "font-weight", "line-height", "letter-spacing", "text-align"]

/-- The lengths that are left out if they are zero, each with the path of its field. -/
def lengthPaths : List (String × List String) :=
  [("width", ["absoluteBoundingBox", "width"]), ("height", ["absoluteBoundingBox", "height"]),
   ("gap", ["itemSpacing"]), ("font-size", ["style", "fontSize"]),
   ("line-height", ["style", "lineHeightPx"]), ("letter-spacing", ["style", "letterSpacing"])]

/-- The value is the text of the number at the end of a path, which is not zero. -/
def IsLengthAt (node : Json) (path : List String) (value : Json) : Prop :=
  ∃ source n text, node.follow? path = some source ∧ source.number? = some n ∧ n.isZero = false ∧
    length source = .ok text ∧ value = .str text

def IsMeasured (node : Json) (css : Css) : Prop :=
  ∀ e ∈ css, ∀ path, lengthPaths.lookup e.1 = some path → IsLengthAt node path e.2

def IsText (node : Json) : Prop := node.lookup? "type" = some (.str "TEXT")

/-- The children of the node stand in a row or a column. -/
def IsFlex (node : Json) : Prop :=
  ∃ mode ∈ ["HORIZONTAL", "VERTICAL"], node.lookup? "layoutMode" = some (.str mode)

/-- What holds of the properties of a style, whatever fields the node has. A length is there if and
only if its field is and is not zero, on nodes that may have it. -/
structure IsStyleOf (node : Json) (css : Css) : Prop where
  ordered : ∃ ground ∈ ["color", "background"], (keys css).Sublist (order ground)
  unique : (keys css).Nodup
  flexed : ∀ name ∈ flexNames, name ∈ keys css ↔ IsFlex node
  spaced : ∀ name ∈ ["flex-wrap", "gap", "padding"], name ∈ keys css → flexNames ⊆ keys css
  filled : ¬ ("color" ∈ keys css ∧ "background" ∈ keys css)
  lettered : ∀ name ∈ "color" :: fontNames, name ∈ keys css → IsText node
  grounded : "background" ∈ keys css → ¬ IsText node
  measured : IsMeasured node css
  complete : ∀ name path source, lengthPaths.lookup name = some path →
    (name = "gap" → IsFlex node) → (name ∈ fontNames → IsText node) →
    node.follow? path = some source → source.isTruthy = true → name ∈ keys css

namespace Part

def layoutNames : List String :=
  ["display", "flex-direction", "flex-wrap", "justify-content", "align-items", "gap", "padding"]

/-- The properties that a part may declare, in their order. -/
def names (isText isFlex : Bool) : Part → List String
  | .size => ["width", "height"]
  | .layout => if isFlex then layoutNames else []
  | .fill => [if isText then "color" else "background"]
  | .border => ["border"]
  | .corners => ["border-radius"]
  | .shadows => ["box-shadow"]
  | .opacity => ["opacity"]
  | .font => if isText then fontNames else []

theorem names_sublist (isText isFlex : Bool) : (all.flatMap (names isText isFlex)).Sublist
    (order (if isText then "color" else "background")) := by
  cases isText <;> cases isFlex <;> decide

theorem nodup_names (isText isFlex : Bool) : (all.flatMap (names isText isFlex)).Nodup := by
  cases isText <;> cases isFlex <;> decide

theorem isFlex_of_mem : ∀ isText isFlex, ∀ name ∈ layoutNames,
    name ∈ all.flatMap (names isText isFlex) → isFlex = true := by
  decide

theorem isText_of_mem : ∀ isText isFlex, ∀ name ∈ "color" :: fontNames,
    name ∈ all.flatMap (names isText isFlex) → isText = true := by
  decide

theorem not_isText_of_mem : ∀ isText isFlex,
    "background" ∈ all.flatMap (names isText isFlex) → ¬ isText = true := by
  decide

theorem mem_names_of_length : ∀ isText isFlex, ∀ name ∈ lengthPaths.map Prod.fst,
    (name = "gap" → isFlex = true) → (name ∈ fontNames → isText = true) →
    name ∈ all.flatMap (names isText isFlex) := by
  decide

end Part

section

variable {v node : Json} {css : Css} {name : String}

@[simp] theorem keys_append (css css' : Css) : keys (css ++ css') = keys css ++ keys css' :=
  List.map_append

@[simp] theorem keys_declare (name text : String) : keys (declare name text) = [name] := rfl

theorem declareLength_eq_ok (h : declareLength name v = .ok css) :
    (¬ v.isTruthy = true ∧ css = []) ∨ ∃ text, v.isTruthy = true ∧ length v = .ok text ∧
      css = declare name text := by
  unfold declareLength at h
  split at h
  case isTrue hv =>
    obtain ⟨text, htext, rfl⟩ := map_eq_ok.1 h
    exact .inr ⟨text, hv, htext, rfl⟩
  case isFalse hv => exact .inl ⟨hv, (Except.ok.inj h).symm⟩

/-- Only numbers have lengths. -/
theorem number?_of_length {text : String} (h : length v = .ok text) : ∃ n, v.number? = some n := by
  cases hn : v.number? with
  | some n => exact ⟨n, rfl⟩
  | none => simp [length, measure, hn] at h

theorem isZero_of_isTruthy {n : Number} (hn : v.number? = some n) (hv : v.isTruthy = true) :
    n.isZero = false := by
  cases v with
  | bool b =>
    obtain rfl := Option.some.inj hn
    rw [Json.isTruthy] at hv
    simp [hv, Number.isZero]
  | num m =>
    obtain rfl := Option.some.inj hn
    simpa [Json.isTruthy] using hv
  | _ => cases hn

/-- Some of the properties in their order. The lengths among them are taken from the node, and all
those are there that it has. -/
structure Fits (node : Json) (names : List String) (css : Css) : Prop where
  ordered : (keys css).Sublist names
  measured : IsMeasured node css
  complete : ∀ name ∈ names, ∀ path source, lengthPaths.lookup name = some path →
    node.follow? path = some source → source.isTruthy = true → name ∈ keys css

namespace Fits

variable {names names' : List String} {css' : Css}

theorem nil : Fits node [] [] where
  ordered := .slnil
  measured := List.forall_mem_nil _
  complete := List.forall_mem_nil _

theorem append (h : Fits node names css) (h' : Fits node names' css') :
    Fits node (names ++ names') (css ++ css') where
  ordered := by
    rw [keys_append]
    exact h.ordered.append h'.ordered
  measured := List.forall_mem_append.2 ⟨h.measured, h'.measured⟩
  complete := by
    intro name hname path source hpath hsource htrue
    rw [keys_append, List.mem_append]
    rcases List.mem_append.1 hname with hname | hname
    · exact .inl (h.complete name hname path source hpath hsource htrue)
    · exact .inr (h'.complete name hname path source hpath hsource htrue)

/-- A property that is no length of those. -/
theorem plain (hname : lengthPaths.lookup name = none) (h : (keys css).Sublist [name]) :
    Fits node [name] css where
  ordered := h
  measured := by
    intro e he path hpath
    have hkey : e.1 = name := List.mem_singleton.1 (h.subset (List.mem_map_of_mem he))
    cases (hkey ▸ hname).symm.trans hpath
  complete := by
    intro name' hmem path source hpath
    obtain rfl := List.mem_singleton.1 hmem
    cases hname.symm.trans hpath

theorem absent (hname : lengthPaths.lookup name = none) : Fits node [name] [] :=
  plain hname (List.nil_sublist _)

theorem single (hname : lengthPaths.lookup name = none) (value : Json) :
    Fits node [name] [(name, value)] := plain hname (.refl _)

theorem declare (hname : lengthPaths.lookup name = none) (text : String) :
    Fits node [name] (declare name text) := plain hname (.refl _)

theorem ofLength {path : List String} (h : declareLength name v = .ok css)
    (hname : lengthPaths.lookup name = some path)
    (hv : ∀ ⦃w⦄, w.isTruthy = true → (node.follow? path = some w ↔ v = w)) :
    Fits node [name] css where
  ordered := by
    rcases declareLength_eq_ok h with ⟨-, rfl⟩ | ⟨text, -, -, rfl⟩
    · exact List.nil_sublist _
    · exact .refl _
  measured := by
    intro e he path' hpath
    rcases declareLength_eq_ok h with ⟨-, rfl⟩ | ⟨text, htrue, htext, rfl⟩
    · cases he
    · obtain rfl := List.mem_singleton.1 he
      -- a property has one path only
      obtain rfl := Option.some.inj (hname.symm.trans hpath)
      obtain ⟨n, hn⟩ := number?_of_length htext
      exact ⟨v, n, text, (hv htrue).2 rfl, hn, isZero_of_isTruthy hn htrue, htext, rfl⟩
  complete := by
    intro name' hmem path' source hpath hsource htrue
    obtain rfl := List.mem_singleton.1 hmem
    obtain rfl := Option.some.inj (hname.symm.trans hpath)
    obtain rfl := (hv htrue).1 hsource
    rcases declareLength_eq_ok h with ⟨hfalse, -⟩ | ⟨text, -, -, rfl⟩
    · exact (hfalse htrue).elim
    · exact .head _

end Fits

theorem size_fits (h : size node = .ok css) : Fits node ["width", "height"] css := by
  rw [size, bind_eq_ok] at h
  obtain ⟨box, hbox, h⟩ := h
  obtain ⟨w, hw, h⟩ := bind_eq_ok.1 h
  obtain ⟨width, hwidth, h⟩ := bind_eq_ok.1 h
  obtain ⟨v, hv, h⟩ := bind_eq_ok.1 h
  obtain ⟨height, hheight, h⟩ := bind_eq_ok.1 h
  obtain rfl := Except.ok.inj h
  have hwidth : Fits node ["width"] width :=
    .ofLength hwidth rfl fun _ hy => Json.follow?_iff_of_get_orEmpty hbox hw hy
  have hheight : Fits node ["height"] height :=
    .ofLength hheight rfl fun _ hy => Json.follow?_iff_of_get_orEmpty hbox hv hy
  exact hwidth.append hheight

theorem padding_fits (h : padding node = .ok css) : Fits node ["padding"] css := by
  rw [padding, bind_eq_ok] at h
  obtain ⟨top, -, h⟩ := h
  obtain ⟨right, -, h⟩ := bind_eq_ok.1 h
  obtain ⟨bottom, -, h⟩ := bind_eq_ok.1 h
  obtain ⟨left, -, h⟩ := bind_eq_ok.1 h
  dsimp only at h
  split at h
  · obtain ⟨texts, -, h⟩ := bind_eq_ok.1 h
    obtain rfl := Except.ok.inj h
    exact .declare rfl _
  · obtain rfl := Except.ok.inj h
    exact .absent rfl

/-- A layout is that of a flexible box. -/
theorem flex_fits {direction : String} (h : flex node direction = .ok css) :
    Fits node Part.layoutNames css ∧ flexNames ⊆ keys css := by
  rw [flex, bind_eq_ok] at h
  obtain ⟨wrap, -, h⟩ := h
  obtain ⟨justify, -, h⟩ := bind_eq_ok.1 h
  obtain ⟨items, -, h⟩ := bind_eq_ok.1 h
  obtain ⟨spacing, hspacing, h⟩ := bind_eq_ok.1 h
  obtain ⟨gap, hgap, h⟩ := bind_eq_ok.1 h
  obtain ⟨padding, hpadding, h⟩ := bind_eq_ok.1 h
  obtain rfl := Except.ok.inj h
  have hwrap : Fits node ["flex-wrap"]
      (if wrap.isText "WRAP" then declare "flex-wrap" "wrap" else []) := by
    split
    · exact .declare rfl _
    · exact .absent rfl
  have hgap : Fits node ["gap"] gap := .ofLength hgap rfl fun _ hy =>
    Json.follow?_iff_of_get hspacing hy
  have hbox : Fits node ["display", "flex-direction"]
      (declare "display" "flex" ++ declare "flex-direction" direction) :=
    (Fits.declare rfl _).append (.declare rfl _)
  exact ⟨((((hbox.append hwrap).append (.declare rfl _)).append (.declare rfl _)).append
    hgap).append (padding_fits hpadding), by simp [flexNames]⟩

theorem isText_iff (h : node.get name = .ok v) {text : String} :
    v.isText text = true ↔ node.lookup? name = some (.str text) := by
  cases node with
  | obj fs =>
    obtain rfl := Except.ok.inj h
    exact isText_getD
  | _ => cases h

theorem layout_eq_ok (h : layout node = .ok css) :
    (¬ IsFlex node ∧ css = []) ∨ IsFlex node ∧ ∃ direction, flex node direction = .ok css := by
  rw [layout, bind_eq_ok] at h
  obtain ⟨mode, hmode, h⟩ := h
  have hflex : IsFlex node ↔ mode.isText "HORIZONTAL" = true ∨ mode.isText "VERTICAL" = true := by
    simp [IsFlex, isText_iff hmode]
  split at h
  case isTrue hrow => exact .inr ⟨hflex.2 (.inl hrow), _, h⟩
  case isFalse hrow =>
    split at h
    case isTrue hcolumn => exact .inr ⟨hflex.2 (.inr hcolumn), _, h⟩
    case isFalse hcolumn =>
      exact .inl ⟨fun hf => (hflex.1 hf).elim hrow hcolumn, (Except.ok.inj h).symm⟩

theorem layout_fits {isFlex : Bool} (hflex : isFlex = true ↔ IsFlex node)
    (h : layout node = .ok css) : Fits node (if isFlex then Part.layoutNames else []) css := by
  rcases layout_eq_ok h with ⟨hnot, rfl⟩ | ⟨hyes, direction, h⟩
  · rw [if_neg (mt hflex.1 hnot)]
    exact .nil
  · rw [if_pos (hflex.2 hyes)]
    exact (flex_fits h).1

theorem flexNames_subset_layout (hflex : IsFlex node) (h : layout node = .ok css) :
    flexNames ⊆ keys css := by
  rcases layout_eq_ok h with ⟨hnot, -⟩ | ⟨-, direction, h⟩
  · exact (hnot hflex).elim
  · exact (flex_fits h).2

theorem fill_fits {isText : Bool} (h : fill node isText = .ok css) :
    Fits node [if isText then "color" else "background"] css := by
  rw [fill, bind_eq_ok] at h
  obtain ⟨fills, -, h⟩ := h
  obtain ⟨paint, -, h⟩ := bind_eq_ok.1 h
  have hground : lengthPaths.lookup (if isText then "color" else "background") = none := by
    cases isText <;> rfl
  cases paint with
  | none =>
    obtain rfl := Except.ok.inj h
    exact .absent hground
  | some paint =>
    obtain ⟨text, -, h⟩ := bind_eq_ok.1 h
    obtain rfl := Except.ok.inj h
    exact .declare hground _

theorem border_fits (h : border node = .ok css) : Fits node ["border"] css := by
  rw [border, bind_eq_ok] at h
  obtain ⟨strokes, -, h⟩ := h
  obtain ⟨paint, -, h⟩ := bind_eq_ok.1 h
  cases paint with
  | none =>
    obtain rfl := Except.ok.inj h
    exact .absent rfl
  | some paint =>
    obtain ⟨weight, -, h⟩ := bind_eq_ok.1 h
    obtain ⟨width, -, h⟩ := bind_eq_ok.1 h
    obtain ⟨text, -, h⟩ := bind_eq_ok.1 h
    obtain rfl := Except.ok.inj h
    exact .declare rfl _

theorem corners_fits (h : corners node = .ok css) : Fits node ["border-radius"] css := by
  rw [corners, bind_eq_ok] at h
  obtain ⟨corners, -, h⟩ := h
  obtain ⟨radii, -, h⟩ := bind_eq_ok.1 h
  split at h
  · obtain ⟨texts, -, h⟩ := bind_eq_ok.1 h
    obtain rfl := Except.ok.inj h
    exact .declare rfl _
  · obtain ⟨radius, -, h⟩ := bind_eq_ok.1 h
    rcases declareLength_eq_ok h with ⟨-, rfl⟩ | ⟨text, -, -, rfl⟩
    · exact .absent rfl
    · exact .declare rfl _

theorem shadows_fits (h : shadows node = .ok css) : Fits node ["box-shadow"] css := by
  rw [shadows, bind_eq_ok] at h
  obtain ⟨effects, -, h⟩ := h
  obtain ⟨es, -, h⟩ := bind_eq_ok.1 h
  obtain ⟨texts, -, h⟩ := bind_eq_ok.1 h
  cases texts with
  | nil =>
    obtain rfl := Except.ok.inj h
    exact .absent rfl
  | cons text texts =>
    obtain rfl := Except.ok.inj h
    exact .declare rfl _

theorem opacity_fits (h : opacity node = .ok css) : Fits node ["opacity"] css := by
  rw [opacity, bind_eq_ok] at h
  obtain ⟨v, -, h⟩ := h
  split at h
  · obtain rfl := Except.ok.inj h
    exact .absent rfl
  · split at h
    · obtain ⟨text, -, h⟩ := bind_eq_ok.1 h
      obtain rfl := Except.ok.inj h
      exact .declare rfl _
    · obtain rfl := Except.ok.inj h
      exact .absent rfl
  · cases h

theorem declareWeight_fits (h : declareWeight v = .ok css) : Fits node ["font-weight"] css := by
  unfold declareWeight at h
  split at h
  · obtain ⟨text, -, rfl⟩ := map_eq_ok.1 h
    exact .declare rfl _
  · obtain rfl := Except.ok.inj h
    exact .absent rfl

theorem textAlign_fits (h : textAlign v = .ok css) : Fits node ["text-align"] css := by
  unfold textAlign at h
  split at h
  · obtain rfl := Except.ok.inj h
    exact .absent rfl
  · split at h
    · obtain rfl := Except.ok.inj h
      exact .declare rfl _
    · obtain ⟨text, -, rfl⟩ := map_eq_ok.1 h
      exact .declare rfl _

theorem font_fits (h : font node = .ok css) : Fits node fontNames css := by
  rw [font, bind_eq_ok] at h
  obtain ⟨style, hstyle, h⟩ := h
  obtain ⟨family, -, h⟩ := bind_eq_ok.1 h
  obtain ⟨s, hs, h⟩ := bind_eq_ok.1 h
  obtain ⟨size, hsize, h⟩ := bind_eq_ok.1 h
  obtain ⟨w, -, h⟩ := bind_eq_ok.1 h
  obtain ⟨weight, hweight, h⟩ := bind_eq_ok.1 h
  obtain ⟨l, hl, h⟩ := bind_eq_ok.1 h
  obtain ⟨lineHeight, hlineHeight, h⟩ := bind_eq_ok.1 h
  obtain ⟨c, hc, h⟩ := bind_eq_ok.1 h
  obtain ⟨spacing, hspacing, h⟩ := bind_eq_ok.1 h
  obtain ⟨a, -, h⟩ := bind_eq_ok.1 h
  obtain ⟨align, halign, h⟩ := bind_eq_ok.1 h
  obtain rfl := Except.ok.inj h
  have hfamily : Fits node ["font-family"]
      (if family.isTruthy then [("font-family", family)] else []) := by
    split
    · exact .single rfl _
    · exact .absent rfl
  have hsize : Fits node ["font-size"] size :=
    .ofLength hsize rfl fun _ hy => Json.follow?_iff_of_get_orEmpty hstyle hs hy
  have hlineHeight : Fits node ["line-height"] lineHeight :=
    .ofLength hlineHeight rfl fun _ hy => Json.follow?_iff_of_get_orEmpty hstyle hl hy
  have hspacing : Fits node ["letter-spacing"] spacing :=
    .ofLength hspacing rfl fun _ hy => Json.follow?_iff_of_get_orEmpty hstyle hc hy
  exact ((((hfamily.append hsize).append (declareWeight_fits hweight)).append
    hlineHeight).append hspacing).append (textAlign_fits halign)

theorem Part.fits {p : Part} {isText isFlex : Bool} (hflex : isFlex = true ↔ IsFlex node)
    (h : p.extract isText node = .ok css) : Fits node (p.names isText isFlex) css := by
  cases p with
  | size => exact size_fits h
  | layout => exact layout_fits hflex h
  | fill => exact fill_fits h
  | border => exact border_fits h
  | corners => exact corners_fits h
  | shadows => exact shadows_fits h
  | opacity => exact opacity_fits h
  | font =>
    cases isText with
    | true => exact font_fits h
    | false =>
      obtain rfl := Except.ok.inj h
      exact .nil

theorem Fits.flatMap {names : Part → List String} {part : Part → Css} {ps : List Part}
    (h : ∀ p ∈ ps, Fits node (names p) (part p)) :
    Fits node (ps.flatMap names) (ps.flatMap part) := by
  induction ps with
  | nil => exact .nil
  | cons p ps ih =>
    rw [List.forall_mem_cons] at h
    exact h.1.append (ih h.2)

theorem extract_fits (h : extract node = .ok css) : ∃ isText isFlex part,
    (isText = true ↔ IsText node) ∧ (isFlex = true ↔ IsFlex node) ∧
      (∀ p : Part, p.extract isText node = .ok (part p)) ∧ css = Part.all.flatMap part ∧
        Fits node (Part.all.flatMap (Part.names isText isFlex)) css := by
  obtain ⟨type, htype, part, hpart, rfl⟩ := extract_eq_ok h
  obtain ⟨isFlex, hflex⟩ : ∃ isFlex : Bool, isFlex = true ↔ IsFlex node := by
    classical exact ⟨decide (IsFlex node), decide_eq_true_iff⟩
  exact ⟨type.isText "TEXT", isFlex, part, isText_iff htype, hflex, hpart, rfl,
    .flatMap fun p _ => Part.fits hflex (hpart p)⟩

/-- Every style has its properties in one order, whatever fields the node has. -/
theorem extract_isStyleOf (h : extract node = .ok css) : IsStyleOf node css := by
  obtain ⟨isText, isFlex, part, htext, hflex, hpart, rfl, hfits⟩ := extract_fits h
  have hnames := hfits.ordered.subset
  have hlayout : keys (part .layout) ⊆ keys (Part.all.flatMap part) :=
    List.map_subset _ fun _ he => List.mem_flatMap_of_mem (Part.mem_all .layout) he
  have hbox (h : IsFlex node) : flexNames ⊆ keys (Part.all.flatMap part) :=
    List.Subset.trans (flexNames_subset_layout h (hpart .layout)) hlayout
  have hlaid {name : String} (hname : name ∈ Part.layoutNames)
      (hmem : name ∈ keys (Part.all.flatMap part)) : IsFlex node :=
    hflex.1 (Part.isFlex_of_mem isText isFlex name hname (hnames hmem))
  have hlettered {name : String} (hname : name ∈ "color" :: fontNames)
      (hmem : name ∈ keys (Part.all.flatMap part)) : IsText node :=
    htext.1 (Part.isText_of_mem isText isFlex name hname (hnames hmem))
  have hgrounded (hmem : "background" ∈ keys (Part.all.flatMap part)) : ¬ IsText node :=
    mt htext.2 (Part.not_isText_of_mem isText isFlex (hnames hmem))
  have hflexNames : flexNames ⊆ Part.layoutNames := by decide
  have hspaced : ["flex-wrap", "gap", "padding"] ⊆ Part.layoutNames := by decide
  exact {
    ordered :=
      ⟨_, by cases isText <;> decide, hfits.ordered.trans (Part.names_sublist isText isFlex)⟩
    unique := hfits.ordered.nodup (Part.nodup_names isText isFlex)
    flexed := fun name hname => ⟨hlaid (hflexNames hname), fun h => hbox h hname⟩
    spaced := fun name hname hmem => hbox (hlaid (hspaced hname) hmem)
    filled := fun h => hgrounded h.2 (hlettered (.head _) h.1)
    lettered := fun name hname hmem => hlettered hname hmem
    grounded := hgrounded
    measured := hfits.measured
    complete := by
      intro name path source hpath hgap hfont hsource htrue
      have hname : name ∈ lengthPaths.map Prod.fst := by
        obtain ⟨before, after, heq, -⟩ := List.lookup_eq_some_iff.1 hpath
        exact List.mem_map.2 ⟨(name, path), heq ▸ List.mem_append_right _ (.head _), rfl⟩
      have hmem := Part.mem_names_of_length isText isFlex name hname
        (fun h => hflex.2 (hgap h)) (fun h => htext.2 (hfont h))
      exact hfits.complete name hmem path source hpath hsource htrue }

end

/-- A text laid out in a column, with two lengths that are zero. -/
def stackedText : Json :=
  .obj [("type", .str "TEXT"), ("layoutMode", .str "VERTICAL"), ("itemSpacing", .num (.int 8)),
    ("absoluteBoundingBox", .obj [("width", .num (.int 0)), ("height", .num (.int 8))]),
    ("style", .obj [("fontSize", .num (.int 8)), ("letterSpacing", .num (.int 0))])]

def stackedCss : Css :=
  [("height", .str "8px"), ("display", .str "flex"), ("flex-direction", .str "column"),
   ("justify-content", .str "flex-start"), ("align-items", .str "flex-start"),
   ("gap", .str "8px"), ("font-size", .str "8px")]

theorem extract_stackedText : extract stackedText = .ok stackedCss := by
  have htrue : (Json.num (.int 8)).isTruthy = true := rfl
  have hfalse : (Json.num (.int 0)).isTruthy = false := rfl
  have hsize : size stackedText = .ok (declare "height" "8px") := by
    simp [size, stackedText, List.lookup_cons, declareLength, Json.orEmpty, htrue, hfalse,
      length_eight]
  have hpadding : padding stackedText = .ok [] := by rfl
  have hwrap : Json.null.isText "WRAP" = false := rfl
  have hflex : flex stackedText "column" = .ok (stackedCss.drop 1).dropLast := by
    simp only [flex, hpadding]
    simp [stackedText, stackedCss, List.lookup_cons, declareLength, htrue, length_eight, hwrap,
      declare, align]
  have hlayout : layout stackedText = .ok (stackedCss.drop 1).dropLast := by
    rw [← hflex]
    rfl
  have hfill : fill stackedText true = .ok [] := by rfl
  have hborder : border stackedText = .ok [] := by rfl
  have hcorners : corners stackedText = .ok [] := by rfl
  have hshadows : shadows stackedText = .ok [] := by rfl
  have hopacity : opacity stackedText = .ok [] := by rfl
  have hfont : font stackedText = .ok (declare "font-size" "8px") := by
    simp [font, stackedText, List.lookup_cons, declareLength, declareWeight, textAlign,
      Json.orEmpty, htrue, hfalse, length_eight]
  have htype : stackedText.get "type" = .ok (.str "TEXT") := rfl
  simp [extract, htype, hsize, hlayout, hfill, hborder, hcorners, hshadows, hopacity, hfont,
    declare, stackedCss]

theorem extract_isStyleOf_stackedText :
    extract stackedText = .ok stackedCss ∧ IsStyleOf stackedText stackedCss :=
  ⟨extract_stackedText, extract_isStyleOf extract_stackedText⟩

end Css

end DesignComponents
