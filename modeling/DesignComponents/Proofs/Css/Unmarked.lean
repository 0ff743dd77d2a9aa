import DesignComponents.Proofs.Css.Hexadecimal
import DesignComponents.Proofs.Css.Order
import DesignComponents.Proofs.Number.Layout
import DesignComponents.Proofs.Text.Case
import DesignComponents.Proofs.Text.Lines

/-!
Values of styles hold no mark that ends a value or a style: numbers, colours and words never do, and
names of fonts and alignments only if the node has the mark there.
-/

namespace DesignComponents

/-- Not one of the signs at which a style text is cut and ends. -/
def IsNoMark (c : Char) : Prop := c ≠ ';' ∧ c ≠ '"'

instance (c : Char) : Decidable (IsNoMark c) := inferInstanceAs (Decidable (_ ∧ _))

/-- Without a semicolon and without a double quote. -/
def IsUnmarked (cs : List Char) : Prop := ∀ c ∈ cs, IsNoMark c

instance (cs : List Char) : Decidable (IsUnmarked cs) := List.decidableBAll IsNoMark cs

/-- The code points of the marks. -/
def markRanges : CharRanges := [(0x22, 0x22), (0x3B, 0x3B)]

theorem isNoMark_iff {c : Char} : IsNoMark c ↔ markRanges.contains c = false := by
  have hcode (d : Char) : c = d ↔ c.toNat = d.toNat := ⟨congrArg _, Char.toNat_inj.1⟩
  rw [IsNoMark, ne_eq, ne_eq, hcode ';', hcode '"']
  simp [markRanges]
  omega

namespace IsUnmarked

variable {c : Char} {cs ds : List Char}

theorem semicolon_notMem (h : IsUnmarked cs) : ';' ∉ cs := fun hmem => (h _ hmem).1 rfl

theorem quote_notMem (h : IsUnmarked cs) : '"' ∉ cs := fun hmem => (h _ hmem).2 rfl

@[simp] theorem append_iff : IsUnmarked (cs ++ ds) ↔ IsUnmarked cs ∧ IsUnmarked ds :=
  List.forall_mem_append

@[simp] theorem cons_iff : IsUnmarked (c :: cs) ↔ IsNoMark c ∧ IsUnmarked cs :=
  List.forall_mem_cons

theorem intercalate {sep : String} {ts : List String} (hsep : IsUnmarked sep.toList)
    (h : ∀ t ∈ ts, IsUnmarked t.toList) : IsUnmarked (sep.intercalate ts).toList := by
  rw [String.toList_intercalate]
  apply forall_mem_intercalate hsep
  intro l hl
  obtain ⟨t, ht, rfl⟩ := List.mem_map.1 hl
  exact h t ht

theorem admitsNumbers : AdmitsNumbers IsNoMark where
  digit c hc := by
    constructor
    all_goals
      rintro rfl
      exact absurd hc (by decide)
  point := by decide
  mark := by decide
  plus := by decide
  minus := by decide

theorem measureText (x : Double) : IsUnmarked x.measureText.toList :=
  admitsNumbers.text Layout.measure (by decide : IsUnmarked "nan".toList)
    (by decide : IsUnmarked "inf".toList) _ x

theorem lower {s : String} (h : IsUnmarked s.toList) : IsUnmarked (lower s).toList := by
  intro c hc
  rw [DesignComponents.lower, String.toList_ofList] at hc
  exact isNoMark_iff.2 (contains_of_mem_lowerAfter (by decide +kernel) (by decide) (by decide)
    (by decide) (fun d hd => isNoMark_iff.1 (h d hd)) hc)

end IsUnmarked

namespace Css

/-- A text as a value, without a mark. -/
def IsPlain (v : Json) : Prop := ∃ s, v = .str s ∧ IsUnmarked s.toList

/-- All values are plain. -/
def HasPlainValues (css : Css) : Prop := ∀ e ∈ css, IsPlain e.2

/-- The name of the font and the alignment are texts without marks, if the node has them. -/
def HasPlainFont (node : Json) : Prop :=
  ∀ name ∈ ["fontFamily", "textAlignHorizontal"], ∀ v, node.follow? ["style", name] = some v →
    v.isTruthy = true → IsPlain v

variable {v node : Json}

namespace HasPlainValues

variable {css css' : Css} {name : String}

theorem nil : HasPlainValues [] := List.forall_mem_nil _

theorem append (h : HasPlainValues css) (h' : HasPlainValues css') : HasPlainValues (css ++ css') :=
  List.forall_mem_append.2 ⟨h, h'⟩

theorem single (h : IsPlain v) : HasPlainValues [(name, v)] := List.forall_mem_singleton.2 h

theorem declare {text : String} (h : IsUnmarked text.toList) : HasPlainValues (declare name text) :=
  single ⟨text, rfl, h⟩

theorem flatMap {part : Part → Css} {ps : List Part} (h : ∀ p ∈ ps, HasPlainValues (part p)) :
    HasPlainValues (ps.flatMap part) := by
  intro e he
  obtain ⟨p, hp, he⟩ := List.mem_flatMap.1 he
  exact h p hp e he

end HasPlainValues

theorem measure_unmarked (v : Json) : Returns (measure v) (IsUnmarked ·.toList) := by
  unfold measure
  split
  case h_1 => exact (Returns.of_forall fun _ _ => trivial).map fun x _ => .measureText x
  case h_2 => trivial

theorem length_unmarked (v : Json) : Returns (length v) (IsUnmarked ·.toList) := by
  refine (measure_unmarked v).map fun t ht => ?_
  rw [String.toList_append, IsUnmarked.append_iff]
  exact ⟨ht, by decide⟩

theorem lengths_unmarked (vs : List Json) :
    Returns (lengths vs) fun ts => ∀ t ∈ ts, IsUnmarked t.toList := by
  induction vs with
  | nil => exact List.forall_mem_nil _
  | cons v vs ih =>
    exact (length_unmarked v).bind fun t ht => ih.bind fun ts hts =>
      List.forall_mem_cons.2 ⟨ht, hts⟩

theorem weight_unmarked (v : Json) : Returns (weight v) (IsUnmarked ·.toList) := by
  unfold weight
  split
  case h_1 =>
    split
    · exact .measureText _
    · trivial
  case h_2 => split <;> trivial

theorem hexPair_unmarked (k : Int) : IsUnmarked (hexPair k) := by
  have hall : IsUnmarked upperHexDigits := by decide
  have hdigits : IsUnmarked (upperHex k.natAbs) := fun c hc => hall c (mem_upperHex _ c hc)
  have hminus : IsNoMark '-' := by decide
  have hzero : IsNoMark '0' := by decide
  unfold hexPair
  dsimp only
  split
  · exact IsUnmarked.cons_iff.2 ⟨hminus, hdigits⟩
  · split
    · exact IsUnmarked.cons_iff.2 ⟨hzero, hdigits⟩
    · exact hdigits

theorem decimal_unmarked (k : Int) : Returns (decimal k) (IsUnmarked ·.toList) := by
  unfold decimal
  split
  · trivial
  · exact IsUnmarked.admitsNumbers.int k

theorem color_unmarked (v opacity : Json) : Returns (color v opacity) (IsUnmarked ·.toList) := by
  unfold color
  refine Returns.step fun _ _ => Returns.step fun r _ => ?_
  refine Returns.step fun _ _ => Returns.step fun g _ => ?_
  refine Returns.step fun _ _ => Returns.step fun b _ => ?_
  refine Returns.step fun _ _ => Returns.step fun a _ => ?_
  split
  · have hdigits : IsUnmarked ('#' :: hexPair r ++ hexPair g ++ hexPair b) := by
      simp only [List.cons_append, IsUnmarked.cons_iff, IsUnmarked.append_iff]
      exact ⟨by decide, ⟨hexPair_unmarked r, hexPair_unmarked g⟩, hexPair_unmarked b⟩
    simpa using hdigits
  · refine (decimal_unmarked r).bind fun r hr => (decimal_unmarked g).bind fun g hg => ?_
    refine (decimal_unmarked b).bind fun b hb => (measure_unmarked _).bind fun t ht => ?_
    have hopening : IsUnmarked "rgba(".toList := by decide
    have hcomma : IsUnmarked ", ".toList := by decide
    have hclosing : IsUnmarked ")".toList := by decide
    simp only [pure_eq_ok, Ends.ok_iff, String.toList_append, IsUnmarked.append_iff]
    exact ⟨⟨⟨⟨⟨⟨⟨⟨hopening, hr⟩, hcomma⟩, hg⟩, hcomma⟩, hb⟩, hcomma⟩, ht⟩, hclosing⟩

theorem paintColor_unmarked (paint : Json) : Returns (paintColor paint) (IsUnmarked ·.toList) := by
  unfold paintColor
  exact Returns.step fun _ _ => Returns.step fun _ _ => color_unmarked _ _

theorem shadow_unmarked (effect : Json) (inset : Bool) :
    Returns (shadow effect inset) (IsUnmarked ·.toList) := by
  unfold shadow
  refine Returns.step fun offset _ => ?_
  refine Returns.step fun _ _ => (length_unmarked _).bind fun x hx => ?_
  refine Returns.step fun _ _ => (length_unmarked _).bind fun y hy => ?_
  refine Returns.step fun _ _ => (length_unmarked _).bind fun radius hradius => ?_
  refine Returns.step fun _ _ => (length_unmarked _).bind fun spread hspread => ?_
  refine Returns.step fun _ _ => (color_unmarked _ _).bind fun color hcolor => ?_
  have hinset : IsUnmarked (if inset then "inset " else "").toList := by cases inset <;> decide
  have hblank : IsUnmarked " ".toList := by decide
  simp only [pure_eq_ok, Ends.ok_iff, String.toList_append, IsUnmarked.append_iff]
  exact ⟨⟨⟨⟨⟨⟨⟨⟨⟨hinset, hx⟩, hblank⟩, hy⟩, hblank⟩, hradius⟩, hblank⟩, hspread⟩, hblank⟩, hcolor⟩

theorem shadowTexts_unmarked (effects : List Json) :
    Returns (shadowTexts effects) fun ts => ∀ t ∈ ts, IsUnmarked t.toList := by
  induction effects with
  | nil => exact List.forall_mem_nil _
  | cons e effects ih =>
    refine Returns.step fun visible _ => Returns.step fun type _ => ?_
    split
    · exact (shadow_unmarked e _).bind fun t ht => ih.bind fun ts hts =>
        List.forall_mem_cons.2 ⟨ht, hts⟩
    · exact ih

/-! ### The parts of a style -/

theorem declareLength_plain (name : String) (v : Json) :
    Returns (declareLength name v) HasPlainValues := by
  unfold declareLength
  split
  · exact (length_unmarked v).map fun _ ht => .declare ht
  · exact HasPlainValues.nil

theorem size_plain (node : Json) : Returns (size node) HasPlainValues := by
  unfold size
  refine Returns.step fun _ _ => Returns.step fun _ _ => ?_
  refine (declareLength_plain _ _).bind fun _ hwidth => Returns.step fun _ _ => ?_
  exact (declareLength_plain _ _).bind fun _ hheight => hwidth.append hheight

theorem padding_plain (node : Json) : Returns (padding node) HasPlainValues := by
  unfold padding
  refine Returns.step fun _ _ => Returns.step fun _ _ => ?_
  refine Returns.step fun _ _ => Returns.step fun _ _ => ?_
  dsimp only
  split
  · exact (lengths_unmarked _).bind fun ts hts => .declare (.intercalate (by decide) hts)
  · exact HasPlainValues.nil

theorem align_unmarked (axis : Axis) (v : Json) : IsUnmarked (align axis v).toList := by
  unfold align
  split_ifs <;> decide

theorem flex_plain (node : Json) {direction : String} (h : IsUnmarked direction.toList) :
    Returns (flex node direction) HasPlainValues := by
  unfold flex
  refine Returns.step fun wrap _ => Returns.step fun _ _ => Returns.step fun _ _ => ?_
  refine Returns.step fun _ _ => (declareLength_plain _ _).bind fun _ hgap => ?_
  refine (padding_plain node).bind fun _ hpadding => ?_
  have hwrap : HasPlainValues (if wrap.isText "WRAP" then declare "flex-wrap" "wrap" else []) := by
    split
    · exact .declare (by decide)
    · exact .nil
  have hflex : HasPlainValues (declare "display" "flex") := .declare (by decide)
  exact (((((hflex.append (.declare h)).append hwrap).append (.declare (align_unmarked _ _))).append
    (.declare (align_unmarked _ _))).append hgap).append hpadding

theorem layout_plain (node : Json) : Returns (layout node) HasPlainValues := by
  unfold layout
  refine Returns.step fun mode _ => ?_
  split
  · exact flex_plain node (by decide)
  · split
    · exact flex_plain node (by decide)
    · exact HasPlainValues.nil

theorem fill_plain (node : Json) (isText : Bool) : Returns (fill node isText) HasPlainValues := by
  unfold fill
  refine Returns.step fun _ _ => Returns.step fun paint _ => ?_
  cases paint with
  | none => exact HasPlainValues.nil
  | some paint => exact (paintColor_unmarked paint).bind fun _ ht => .declare ht

theorem border_plain (node : Json) : Returns (border node) HasPlainValues := by
  unfold border
  refine Returns.step fun _ _ => Returns.step fun paint _ => ?_
  cases paint with
  | none => exact HasPlainValues.nil
  | some paint =>
    refine Returns.step fun _ _ => (length_unmarked _).bind fun width hwidth => ?_
    refine (paintColor_unmarked paint).bind fun text htext => .declare ?_
    have hsolid : IsUnmarked " solid ".toList := by decide
    simp only [String.toList_append, IsUnmarked.append_iff]
    exact ⟨⟨hwidth, hsolid⟩, htext⟩

theorem corners_plain (node : Json) : Returns (corners node) HasPlainValues := by
  unfold corners
  refine Returns.step fun _ _ => Returns.step fun radii _ => ?_
  split
  · exact (lengths_unmarked _).bind fun ts hts => .declare (.intercalate (by decide) hts)
  · exact Returns.step fun _ _ => declareLength_plain _ _

theorem shadows_plain (node : Json) : Returns (shadows node) HasPlainValues := by
  unfold shadows
  refine Returns.step fun _ _ => Returns.step fun _ _ => (shadowTexts_unmarked _).bind fun ts hts => ?_
  cases ts with
  | nil => exact HasPlainValues.nil
  | cons t ts => exact HasPlainValues.declare (.intercalate (by decide) hts)

theorem opacity_plain (node : Json) : Returns (opacity node) HasPlainValues := by
  unfold Css.opacity
  refine Returns.step fun v _ => ?_
  split
  · exact HasPlainValues.nil
  · split
    · exact (measure_unmarked _).bind fun _ ht => .declare ht
    · exact HasPlainValues.nil
  · trivial

theorem declareWeight_plain (v : Json) : Returns (declareWeight v) HasPlainValues := by
  unfold declareWeight
  split
  · exact (weight_unmarked v).map fun _ ht => .declare ht
  · exact HasPlainValues.nil

theorem textAlign_plain (h : v.isTruthy = true → IsPlain v) :
    Returns (textAlign v) HasPlainValues := by
  unfold textAlign
  split
  case isTrue => exact HasPlainValues.nil
  case isFalse hgiven =>
    split
    · exact HasPlainValues.declare (by decide)
    · simp only [Bool.or_eq_true, Bool.not_eq_true', not_or, Bool.not_eq_false] at hgiven
      obtain ⟨s, rfl, hs⟩ := h hgiven.1
      exact HasPlainValues.declare hs.lower

theorem font_plain (h : HasPlainFont node) : Returns (font node) HasPlainValues := by
  unfold font
  refine Returns.step fun style hstyle => Returns.step fun family hfamily => ?_
  refine Returns.step fun _ _ => (declareLength_plain _ _).bind fun _ hsize => ?_
  refine Returns.step fun _ _ => (declareWeight_plain _).bind fun _ hweight => ?_
  refine Returns.step fun _ _ => (declareLength_plain _ _).bind fun _ hline => ?_
  refine Returns.step fun _ _ => (declareLength_plain _ _).bind fun _ hspacing => ?_
  refine Returns.step fun align halign => ?_
  have hgiven {name : String} {v : Json} (hname : name ∈ ["fontFamily", "textAlignHorizontal"])
      (hv : style.orEmpty.get name = .ok v) (htrue : v.isTruthy = true) : IsPlain v :=
    h name hname v ((Json.follow?_iff_of_get_orEmpty hstyle hv htrue).2 rfl) htrue
  refine (textAlign_plain (hgiven (by decide) halign)).bind fun _ halign => ?_
  have hfamily : HasPlainValues (if family.isTruthy then [("font-family", family)] else []) := by
    split
    case isTrue htrue => exact .single (hgiven (by decide) hfamily htrue)
    case isFalse => exact .nil
  exact ((((hfamily.append hsize).append hweight).append hline).append hspacing).append halign

theorem Part.plain (h : HasPlainFont node) (isText : Bool) (p : Part) :
    Returns (p.extract isText node) HasPlainValues := by
  cases p with
  | size => exact size_plain node
  | layout => exact layout_plain node
  | fill => exact fill_plain node isText
  | border => exact border_plain node
  | corners => exact corners_plain node
  | shadows => exact shadows_plain node
  | opacity => exact opacity_plain node
  | font =>
    cases isText with
    | true => exact font_plain h
    | false => exact HasPlainValues.nil

theorem extract_plain {css : Css} (h : HasPlainFont node) (hcss : extract node = .ok css) :
    HasPlainValues css := by
  obtain ⟨type, -, part, hpart, rfl⟩ := extract_eq_ok hcss
  exact .flatMap fun p _ => (p.plain h _).of_ok (hpart p)

end Css

end DesignComponents
