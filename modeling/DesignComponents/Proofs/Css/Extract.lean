import DesignComponents.Css.Extract
import DesignComponents.Proofs.Css.Channel
import DesignComponents.Proofs.Scene.Shape

/-!
Every node whose fields are of their types has a style.
-/

namespace DesignComponents.Css

open Shape

variable {v : Json}

theorem color_yields {opacity : Json} (h : Shape.color v = true)
    (ho : opacity = .null ∨ number opacity = true) : Yields (color v opacity) fun _ => True := by
  apply (record_getOr "r" h rfl rfl).bind
  intro _ hr
  apply (channel_yields hr).bind
  intro r hr
  apply (record_getOr "g" h rfl rfl).bind
  intro _ hg
  apply (channel_yields hg).bind
  intro g hg
  apply (record_getOr "b" h rfl rfl).bind
  intro _ hb
  apply (channel_yields hb).bind
  intro b hb
  apply (record_getOr "a" h rfl rfl).bind
  intro _ ha
  apply (alpha_yields ha ho).bind
  intro a ha
  split
  · simp
  · rw [decimal_eq hr, decimal_eq hg, decimal_eq hb]
    apply (measure_yields ha).bind
    intro _ _
    simp

theorem number_measure (h : number v = true) : Yields (measure v) fun _ => True := by
  obtain ⟨n, rfl, hn⟩ := exists_of_number h
  exact measure_yields (.of_isFinite hn)

theorem number_length (h : number v = true) : Yields (length v) fun _ => True :=
  (number_measure h).map fun _ _ => trivial

theorem numbers_lengths {vs : List Json} (h : ∀ v ∈ vs, number v = true) :
    Yields (lengths vs) fun _ => True := by
  induction vs with
  | nil => simp
  | cons v vs ih =>
    apply (number_length (h v (.head _))).bind
    intro _ _
    apply (ih fun v hv => h v (.tail _ hv)).bind
    intro _ _
    simp

theorem number_declareLength (name : String) (h : v = .null ∨ number v = true) :
    Yields (declareLength name v) fun _ => True := by
  unfold declareLength
  split
  case isTrue ht =>
    rcases h with rfl | h
    · simp at ht
    · exact (number_length h).map fun _ _ => trivial
  case isFalse => simp

theorem size_yields (h : node v = true) : Yields (size v) fun _ => True := by
  apply (record_get "absoluteBoundingBox" h rfl).bind
  intro b hb
  have hb : box b.orEmpty = true := orEmpty_record (hb.elim .inl orNull_iff.1)
  apply (record_get "width" hb rfl).bind
  intro _ hw
  apply (number_declareLength "width" hw).bind
  intro _ _
  apply (record_get "height" hb rfl).bind
  intro _ hh
  apply (number_declareLength "height" hh).bind
  intro _ _
  simp

theorem paddingOf_yields {name : String} (h : node v = true)
    (hs : nodeFields.lookup name = some number) :
    Yields (paddingOf v name) fun x => number x = true := by
  apply (record_getOr name h hs rfl).bind
  intro x hx
  split
  · exact Yields.ok_iff.2 hx
  · exact Yields.ok_iff.2 rfl

theorem padding_yields (h : node v = true) : Yields (padding v) fun _ => True := by
  apply (paddingOf_yields h rfl).bind
  intro top ht
  apply (paddingOf_yields h rfl).bind
  intro right hr
  apply (paddingOf_yields h rfl).bind
  intro bottom hb
  apply (paddingOf_yields h rfl).bind
  intro left hl
  dsimp only
  split
  · have hsides : ∀ v ∈ [top, right, bottom, left], number v = true := by simp [*]
    apply (numbers_lengths hsides).bind
    intro _ _
    simp
  · simp

theorem flex_yields (direction : String) (h : node v = true) :
    Yields (flex v direction) fun _ => True := by
  apply (record_get "layoutWrap" h rfl).bind
  intro _ _
  apply (record_getOr "primaryAxisAlignItems" h rfl rfl).bind
  intro _ _
  apply (record_getOr "counterAxisAlignItems" h rfl rfl).bind
  intro _ _
  apply (record_get "itemSpacing" h rfl).bind
  intro _ hg
  apply (number_declareLength "gap" hg).bind
  intro _ _
  apply (padding_yields h).bind
  intro _ _
  simp

theorem layout_yields (h : node v = true) : Yields (layout v) fun _ => True := by
  apply (record_get "layoutMode" h rfl).bind
  intro mode _
  split
  · exact flex_yields "row" h
  · split
    · exact flex_yields "column" h
    · simp

theorem isVisible_yields {fields : List (String × Shape)} (h : record fields v = true)
    (hs : fields.lookup "visible" = some flag) : Yields (isVisible v) fun _ => True :=
  (record_getOr "visible" h hs rfl).map fun _ _ => trivial

theorem firstSolid_yields {paints : List Json} (h : ∀ p ∈ paints, paint p = true) :
    Yields (firstSolid paints) fun r => ∀ p, r = some p → paint p = true := by
  induction paints with
  | nil => simp [firstSolid]
  | cons p paints ih =>
    have hp := h p (.head _)
    have hrest := ih fun q hq => h q (.tail _ hq)
    apply (isVisible_yields hp rfl).bind
    intro _ _
    apply (record_get "type" hp rfl).bind
    intro _ _
    split
    · simpa using hp
    · exact hrest

theorem solidPaint_yields {paints : Json} (h : paints = .null ∨ listOf paint paints = true) :
    Yields (solidPaint paints) fun r => ∀ p, r = some p → paint p = true := by
  apply (elementsOrNone_listOf h).bind
  intro xs hxs
  exact firstSolid_yields hxs

theorem paintColor_yields (h : paint v = true) : Yields (paintColor v) fun _ => True := by
  apply (record_getOr "color" h rfl rfl).bind
  intro c hc
  apply (record_get "opacity" h rfl).bind
  intro o ho
  exact color_yields hc ho

theorem fill_yields (isText : Bool) (h : node v = true) :
    Yields (fill v isText) fun _ => True := by
  apply (record_get "fills" h rfl).bind
  intro paints hp
  apply (solidPaint_yields hp).bind
  intro r hr
  cases r with
  | none => simp
  | some p =>
    apply (paintColor_yields (hr p rfl)).bind
    intro _ _
    simp

theorem border_yields (h : node v = true) : Yields (border v) fun _ => True := by
  apply (record_get "strokes" h rfl).bind
  intro paints hp
  apply (solidPaint_yields hp).bind
  intro r hr
  cases r with
  | none => simp
  | some p =>
    apply (record_getOr "strokeWeight" h rfl rfl).bind
    intro _ hw
    apply (number_length hw).bind
    intro _ _
    apply (paintColor_yields (hr p rfl)).bind
    intro _ _
    simp

theorem corners_yields (h : node v = true) : Yields (corners v) fun _ => True := by
  apply (record_get "rectangleCornerRadii" h rfl).bind
  intro _ hr
  apply (elementsOrNone_listOf hr).bind
  intro radii hradii
  split
  · apply (numbers_lengths hradii).bind
    intro _ _
    simp
  · apply (record_get "cornerRadius" h rfl).bind
    intro _ hr
    exact number_declareLength "border-radius" hr

theorem shadow_yields (inset : Bool) (h : effect v = true) :
    Yields (shadow v inset) fun _ => True := by
  apply (record_getOr "offset" h rfl rfl).bind
  intro o ho
  apply (record_getOr "x" ho rfl rfl).bind
  intro _ hx
  apply (number_length hx).bind
  intro _ _
  apply (record_getOr "y" ho rfl rfl).bind
  intro _ hy
  apply (number_length hy).bind
  intro _ _
  apply (record_getOr "radius" h rfl rfl).bind
  intro _ hr
  apply (number_length hr).bind
  intro _ _
  apply (record_getOr "spread" h rfl rfl).bind
  intro _ hs
  apply (number_length hs).bind
  intro _ _
  apply (record_getOr "color" h rfl rfl).bind
  intro _ hc
  apply (color_yields hc (.inl rfl)).bind
  intro _ _
  simp

theorem shadowTexts_yields {effects : List Json} (h : ∀ e ∈ effects, effect e = true) :
    Yields (shadowTexts effects) fun _ => True := by
  induction effects with
  | nil => simp [shadowTexts]
  | cons e effects ih =>
    have he := h e (.head _)
    have hrest := ih fun q hq => h q (.tail _ hq)
    apply (isVisible_yields he rfl).bind
    intro _ _
    apply (record_get "type" he rfl).bind
    intro _ _
    split
    · apply (shadow_yields _ he).bind
      intro _ _
      apply hrest.bind
      intro _ _
      simp
    · exact hrest

theorem shadows_yields (h : node v = true) : Yields (shadows v) fun _ => True := by
  apply (record_get "effects" h rfl).bind
  intro _ he
  apply (elementsOrNone_listOf he).bind
  intro _ he
  apply (shadowTexts_yields he).bind
  intro texts _
  cases texts <;> simp

theorem opacity_yields (h : node v = true) : Yields (opacity v) fun _ => True := by
  apply (record_get "opacity" h rfl).bind
  intro o ho
  rcases ho with rfl | ho
  · simp
  · obtain ⟨n, rfl, -⟩ := exists_of_number ho
    dsimp only [Json.number?]
    split
    · apply (number_measure ho).bind
      intro _ _
      simp
    · simp

theorem textAlign_yields (h : v = .null ∨ text v = true) : Yields (textAlign v) fun _ => True := by
  rcases h with rfl | h
  · simp [textAlign]
  · obtain ⟨s, rfl⟩ := exists_of_text h
    unfold textAlign
    split
    · simp
    · split <;> simp

theorem declareWeight_yields (h : v = .null ∨ number v = true) :
    Yields (declareWeight v) fun _ => True := by
  rcases h with rfl | h
  · simp [declareWeight]
  · obtain ⟨n, rfl, hn⟩ := exists_of_number h
    obtain ⟨x, hx⟩ := Number.IsMeasurable.of_isFinite hn
    unfold declareWeight
    split
    · simp [weight, Json.number?, hx]
    · simp

theorem font_yields (h : node v = true) : Yields (font v) fun _ => True := by
  apply (record_get "style" h rfl).bind
  intro style hs
  have hs : typeStyle style.orEmpty = true := orEmpty_record hs
  apply (record_get "fontFamily" hs rfl).bind
  intro _ _
  apply (record_get "fontSize" hs rfl).bind
  intro _ hv
  apply (number_declareLength "font-size" hv).bind
  intro _ _
  apply (record_get "fontWeight" hs rfl).bind
  intro _ hv
  apply (declareWeight_yields hv).bind
  intro _ _
  apply (record_get "lineHeightPx" hs rfl).bind
  intro _ hv
  apply (number_declareLength "line-height" hv).bind
  intro _ _
  apply (record_get "letterSpacing" hs rfl).bind
  intro _ hv
  apply (number_declareLength "letter-spacing" hv).bind
  intro _ _
  apply (record_get "textAlignHorizontal" hs rfl).bind
  intro _ hv
  apply (textAlign_yields hv).bind
  intro _ _
  simp

theorem extract_yields (h : node v = true) : Yields (extract v) fun _ => True := by
  apply (record_get "type" h rfl).bind
  intro type _
  apply (size_yields h).bind
  intro _ _
  apply (layout_yields h).bind
  intro _ _
  apply (fill_yields _ h).bind
  intro _ _
  apply (border_yields h).bind
  intro _ _
  apply (corners_yields h).bind
  intro _ _
  apply (shadows_yields h).bind
  intro _ _
  apply (opacity_yields h).bind
  intro _ _
  dsimp only
  split
  · apply (font_yields h).bind
    intro _ _
    simp
  · simp

end DesignComponents.Css
