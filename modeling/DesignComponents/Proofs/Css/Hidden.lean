import DesignComponents.Proofs.Css.Parts
import Mathlib.Logic.Relation

/-!
What does not show in a style: paints and effects that are invisible or of other kinds, all behind
the first visible colour, and fields that do not matter to a node.
-/

namespace DesignComponents.Css

/-- The object is visible, as it is if it does not say, and of one of the kinds. -/
def IsShown (kinds : List String) (fs : List (String × Json)) : Prop :=
  ((fs.lookup "visible").getD (.bool true)).isTruthy = true ∧
    ∃ kind ∈ kinds, fs.lookup "type" = some (.str kind)

def paintKinds : List String := ["SOLID"]

def effectKinds : List String := ["DROP_SHADOW", "INNER_SHADOW"]

/-- The objects have the same fields but for these. -/
def AgreeBut (names : List String) (fs fs' : List (String × Json)) : Prop :=
  ∀ name, name ∉ names → fs.lookup name = fs'.lookup name

/-- What a field of an object runs through; nothing if it is absent or empty. -/
def Holds (fs : List (String × Json)) (name : String) (xs : List Json) : Prop :=
  ((fs.lookup name).getD .null).elementsOrNone = .ok xs

/-- Paints with one more that is not shown, or with others behind one that is shown. -/
inductive PaintsAlike : List Json → List Json → Prop
  | hidden (before after : List Json) {p : List (String × Json)} (h : ¬ IsShown paintKinds p) :
    PaintsAlike (before ++ after) (before ++ .obj p :: after)
  | behind (before after after' : List Json) {p : List (String × Json)}
    (h : IsShown paintKinds p) :
    PaintsAlike (before ++ .obj p :: after) (before ++ .obj p :: after')

/-- Effects with one more that is not shown. -/
inductive EffectsAlike : List Json → List Json → Prop
  | hidden (before after : List Json) {e : List (String × Json)} (h : ¬ IsShown effectKinds e) :
    EffectsAlike (before ++ after) (before ++ .obj e :: after)

/-- Two nodes that differ in one way that does not matter to their style. -/
inductive Differs : List (String × Json) → List (String × Json) → Prop
  | paints {fs fs' : List (String × Json)} {name : String} {xs xs' : List Json}
    (among : name = "fills" ∨ name = "strokes") (before : Holds fs name xs)
    (after : Holds fs' name xs') (alike : PaintsAlike xs xs')
    (others : AgreeBut [name] fs fs') : Differs fs fs'
  | effects {fs fs' : List (String × Json)} {xs xs' : List Json} (before : Holds fs "effects" xs)
    (after : Holds fs' "effects" xs') (alike : EffectsAlike xs xs')
    (others : AgreeBut ["effects"] fs fs') : Differs fs fs'
  | radius {fs fs' : List (String × Json)} {radii : List Json}
    (corners : Holds fs "rectangleCornerRadii" radii) (round : ∃ r ∈ radii, r.isTruthy = true)
    (others : AgreeBut ["cornerRadius"] fs fs') : Differs fs fs'
  | layout {fs fs' : List (String × Json)} (free : ∀ mode ∈ ["HORIZONTAL", "VERTICAL"],
      fs.lookup "layoutMode" ≠ some (.str mode))
    (others : AgreeBut Part.layoutFields fs fs') : Differs fs fs'
  | font {fs fs' : List (String × Json)} (wordless : fs.lookup "type" ≠ some (.str "TEXT"))
    (others : AgreeBut ["style"] fs fs') : Differs fs fs'
  | identity {fs fs' : List (String × Json)}
    (others : AgreeBut ["id", "name", "children", "componentId", "componentProperties",
      "componentPropertyDefinitions"] fs fs') : Differs fs fs'

theorem isShown_paint_iff {p : List (String × Json)} : IsShown paintKinds p ↔
    (((p.lookup "visible").getD (.bool true)).isTruthy &&
      ((p.lookup "type").getD .null).isText "SOLID") = true := by
  simp [IsShown, paintKinds, isText_getD]

theorem isShown_effect_iff {e : List (String × Json)} : IsShown effectKinds e ↔
    (((e.lookup "visible").getD (.bool true)).isTruthy &&
      (((e.lookup "type").getD .null).isText "DROP_SHADOW" ||
        ((e.lookup "type").getD .null).isText "INNER_SHADOW")) = true := by
  simp [IsShown, effectKinds, isText_getD]

theorem firstSolid_of_shown {p : List (String × Json)} (h : IsShown paintKinds p)
    (ps : List Json) : firstSolid (.obj p :: ps) = .ok (some (.obj p)) := by
  rw [isShown_paint_iff] at h
  simp only [firstSolid, isVisible, Json.getOr_obj, map_ok, ok_bind, Json.get_obj, h, if_true]
  rfl

theorem firstSolid_of_hidden {p : List (String × Json)} (h : ¬ IsShown paintKinds p)
    (ps : List Json) : firstSolid (.obj p :: ps) = firstSolid ps := by
  rw [isShown_paint_iff] at h
  simp only [firstSolid, isVisible, Json.getOr_obj, map_ok, ok_bind, Json.get_obj, h,
    Bool.false_eq_true, if_false]

theorem shadowTexts_of_hidden {e : List (String × Json)} (h : ¬ IsShown effectKinds e)
    (es : List Json) : shadowTexts (.obj e :: es) = shadowTexts es := by
  rw [isShown_effect_iff] at h
  simp only [shadowTexts, isVisible, Json.getOr_obj, map_ok, ok_bind, Json.get_obj, h,
    Bool.false_eq_true, if_false]

theorem firstSolid_append_congr {ps qs : List Json} (h : firstSolid ps = firstSolid qs)
    (before : List Json) : firstSolid (before ++ ps) = firstSolid (before ++ qs) := by
  induction before with
  | nil => exact h
  | cons p before ih => simp only [List.cons_append, firstSolid, ih]

theorem shadowTexts_append_congr {es es' : List Json} (h : shadowTexts es = shadowTexts es')
    (before : List Json) : shadowTexts (before ++ es) = shadowTexts (before ++ es') := by
  induction before with
  | nil => exact h
  | cons e before ih => simp only [List.cons_append, shadowTexts, ih]

theorem PaintsAlike.firstSolid_eq {ps ps' : List Json} (h : PaintsAlike ps ps') :
    firstSolid ps = firstSolid ps' := by
  cases h with
  | hidden before after h =>
    exact firstSolid_append_congr (firstSolid_of_hidden h after).symm before
  | behind before after after' h =>
    apply firstSolid_append_congr
    rw [firstSolid_of_shown h, firstSolid_of_shown h]

theorem EffectsAlike.shadowTexts_eq {es es' : List Json} (h : EffectsAlike es es') :
    shadowTexts es = shadowTexts es' := by
  cases h with
  | hidden before after h =>
    exact shadowTexts_append_congr (shadowTexts_of_hidden h after).symm before

/-- One field has another value. -/
theorem AgreeBut.replace (before after : List (String × Json)) (name : String) (v v' : Json) :
    AgreeBut [name] (before ++ (name, v) :: after) (before ++ (name, v') :: after) := by
  intro name' h
  have hne : (name' == name) = false := by simpa using h
  simp [List.lookup_append, List.lookup_cons, hne]

theorem AgreeBut.mono {names names' : List String} {fs fs' : List (String × Json)}
    (h : AgreeBut names fs fs') (hsub : names ⊆ names') : AgreeBut names' fs fs' :=
  fun name hname => h name fun hmem => hname (hsub hmem)

theorem AgreeBut.extract_eq {names : List String} {fs fs' : List (String × Json)}
    (h : AgreeBut names fs fs') {p : Part} (isText : Bool)
    (hp : ∀ name ∈ p.fields, name ∉ names) :
    p.extract isText (.obj fs) = p.extract isText (.obj fs') :=
  p.extract_congr isText fun name hname => h name (hp name hname)

section

variable {fs fs' : List (String × Json)}

theorem fill_eq {ps ps' : List Json} (h : Holds fs "fills" ps) (h' : Holds fs' "fills" ps')
    (hp : PaintsAlike ps ps') (isText : Bool) : fill (.obj fs) isText = fill (.obj fs') isText := by
  unfold Holds at h h'
  simp only [fill, solidPaint, Json.get_obj, ok_bind, h, h', hp.firstSolid_eq]

theorem border_eq {ps ps' : List Json} (h : Holds fs "strokes" ps) (h' : Holds fs' "strokes" ps')
    (hp : PaintsAlike ps ps') (hweight : fs.lookup "strokeWeight" = fs'.lookup "strokeWeight") :
    border (.obj fs) = border (.obj fs') := by
  unfold Holds at h h'
  simp only [border, solidPaint, Json.get_obj, Json.getOr_obj, ok_bind, h, h', hp.firstSolid_eq,
    hweight]

theorem shadows_eq {es es' : List Json} (h : Holds fs "effects" es) (h' : Holds fs' "effects" es')
    (he : EffectsAlike es es') : shadows (.obj fs) = shadows (.obj fs') := by
  unfold Holds at h h'
  simp only [shadows, Json.get_obj, ok_bind, h, h', he.shadowTexts_eq]

theorem corners_eq {radii : List Json} (h : Holds fs "rectangleCornerRadii" radii)
    (hround : ∃ r ∈ radii, r.isTruthy = true)
    (hsame : fs.lookup "rectangleCornerRadii" = fs'.lookup "rectangleCornerRadii") :
    corners (.obj fs) = corners (.obj fs') := by
  have hany : radii.any Json.isTruthy = true := List.any_eq_true.2 hround
  have h' : Holds fs' "rectangleCornerRadii" radii := by rwa [Holds, ← hsame]
  unfold Holds at h h'
  simp only [corners, Json.get_obj, ok_bind, h, h', hany, if_true]

theorem layout_of_free (h : ∀ mode ∈ ["HORIZONTAL", "VERTICAL"],
    fs.lookup "layoutMode" ≠ some (.str mode)) : layout (.obj fs) = .ok [] := by
  have hmode (mode : String) (hmem : mode ∈ ["HORIZONTAL", "VERTICAL"]) :
      ((fs.lookup "layoutMode").getD .null).isText mode = false :=
    Bool.eq_false_iff.2 fun ht => h mode hmem (isText_getD.1 ht)
  simp [layout, hmode]

end

theorem Differs.type_eq {fs fs' : List (String × Json)} (h : Differs fs fs') :
    fs.lookup "type" = fs'.lookup "type" := by
  cases h with
  | paints among _ _ _ others =>
    rcases among with rfl | rfl <;> exact others _ (by decide)
  | effects _ _ _ others => exact others _ (by decide)
  | radius _ _ others => exact others _ (by decide)
  | layout _ others => exact others _ (by decide)
  | font _ others => exact others _ (by decide)
  | identity others => exact others _ (by decide)

/-- A difference that does not matter leaves every part of a style as it is. -/
theorem Differs.part_eq {fs fs' : List (String × Json)} (h : Differs fs fs') (p : Part) :
    let isText := ((fs.lookup "type").getD .null).isText "TEXT"
    p.extract isText (.obj fs) = p.extract isText (.obj fs') := by
  intro isText
  cases h with
  | paints among before after alike others =>
    rcases among with rfl | rfl
    · cases p with
      | fill => exact fill_eq before after alike isText
      | _ => exact others.extract_eq _ (by decide)
    · cases p with
      | border => exact border_eq before after alike (others _ (by decide))
      | _ => exact others.extract_eq _ (by decide)
  | effects before after alike others =>
    cases p with
    | shadows => exact shadows_eq before after alike
    | _ => exact others.extract_eq _ (by decide)
  | radius corners round others =>
    cases p with
    | corners => exact corners_eq corners round (others _ (by decide))
    | _ => exact others.extract_eq _ (by decide)
  | layout free others =>
    cases p with
    | layout =>
      have hfree' : ∀ mode ∈ ["HORIZONTAL", "VERTICAL"],
          fs'.lookup "layoutMode" ≠ some (.str mode) := by rwa [← others _ (by decide)]
      exact (layout_of_free free).trans (layout_of_free hfree').symm
    | _ => exact others.extract_eq _ (by decide)
  | font wordless others =>
    have hfalse : isText = false := Bool.eq_false_iff.2 fun ht => wordless (isText_getD.1 ht)
    cases p with
    | font => rw [hfalse]; rfl
    | _ => exact others.extract_eq _ (by decide)
  | identity others => exact others.extract_eq _ (by cases p <;> decide)

theorem Differs.extract_eq {fs fs' : List (String × Json)} (h : Differs fs fs') :
    extract (.obj fs) = extract (.obj fs') := by
  apply extract_congr (by rw [Json.get_obj, Json.get_obj, h.type_eq])
  intro type htype p
  obtain rfl := Except.ok.inj htype
  exact h.part_eq p

/-- Nodes that differ in ways that do not matter have the same style, or both have none. -/
theorem extract_conceals {fs fs' : List (String × Json)} (h : Relation.EqvGen Differs fs fs') :
    extract (.obj fs) = extract (.obj fs') := by
  induction h with
  | rel fs fs' h => exact h.extract_eq
  | refl fs => rfl
  | symm fs fs' _ ih => exact ih.symm
  | trans fs fs' fs'' _ _ ih ih' => exact ih.trans ih'

def solid (red : Int) : List (String × Json) :=
  [("type", .str "SOLID"), ("color", .obj [("r", .num (.int red))])]

def ghost : List (String × Json) := ("visible", .bool false) :: solid 0

def blur : List (String × Json) := [("type", .str "LAYER_BLUR")]

/-- A frame without a direction, with the fields that matter to it and some that do not. -/
def card (fills effects : List Json) (radius gap size : Int) (name : String) :
    List (String × Json) :=
  [("type", .str "FRAME"), ("fills", .arr fills), ("effects", .arr effects),
   ("rectangleCornerRadii", .arr [.num (.int 0), .num (.int 8)]),
   ("cornerRadius", .num (.int radius)), ("itemSpacing", .num (.int gap)),
   ("style", .obj [("fontSize", .num (.int size))]), ("name", .str name)]

def plainCard : List (String × Json) := card [.obj (solid 1)] [] 0 0 0 "Card"

def paints : List Json := [.obj ghost, .obj (solid 1), .obj (solid 0)]

def dressedCard : List (String × Json) := card paints [.obj blur] 4 10 12 "Dressed"

theorem dressedCard_differs : Relation.EqvGen Differs plainCard dressedCard := by
  have hghost : ¬ IsShown paintKinds ghost := by rw [isShown_paint_iff]; decide
  have hsolid : IsShown paintKinds (solid 1) := by rw [isShown_paint_iff]; decide
  have hblur : ¬ IsShown effectKinds blur := by rw [isShown_effect_iff]; decide
  have hghosted : Differs plainCard (card [.obj ghost, .obj (solid 1)] [] 0 0 0 "Card") :=
    .paints (.inl rfl) rfl rfl (.hidden [] [.obj (solid 1)] hghost) (.replace [_] _ "fills" _ _)
  have hpainted :
      Differs (card [.obj ghost, .obj (solid 1)] [] 0 0 0 "Card") (card paints [] 0 0 0 "Card") :=
    .paints (.inl rfl) rfl rfl (.behind [.obj ghost] [] [.obj (solid 0)] hsolid)
      (.replace [_] _ "fills" _ _)
  have hblurred :
      Differs (card paints [] 0 0 0 "Card") (card paints [.obj blur] 0 0 0 "Card") :=
    .effects rfl rfl (.hidden [] [] hblur) (.replace [_, _] _ "effects" _ _)
  have hrounded :
      Differs (card paints [.obj blur] 0 0 0 "Card") (card paints [.obj blur] 4 0 0 "Card") :=
    .radius rfl ⟨.num (.int 8), by simp, rfl⟩ (.replace [_, _, _, _] _ "cornerRadius" _ _)
  have hspaced :
      Differs (card paints [.obj blur] 4 0 0 "Card") (card paints [.obj blur] 4 10 0 "Card") :=
    .layout (by simp [card, List.lookup_cons])
      ((AgreeBut.replace [_, _, _, _, _] _ "itemSpacing" _ _).mono (by decide))
  have hlettered :
      Differs (card paints [.obj blur] 4 10 0 "Card") (card paints [.obj blur] 4 10 12 "Card") :=
    .font (by simp [card]) (.replace [_, _, _, _, _, _] _ "style" _ _)
  have hnamed : Differs (card paints [.obj blur] 4 10 12 "Card") dressedCard :=
    .identity ((AgreeBut.replace [_, _, _, _, _, _, _] _ "name" _ _).mono (by decide))
  exact .trans _ _ _ (.rel _ _ hghosted) <| .trans _ _ _ (.rel _ _ hpainted) <|
    .trans _ _ _ (.rel _ _ hblurred) <| .trans _ _ _ (.rel _ _ hrounded) <|
    .trans _ _ _ (.rel _ _ hspaced) <| .trans _ _ _ (.rel _ _ hlettered) (.rel _ _ hnamed)

theorem extract_plainCard : extract (.obj plainCard) =
    .ok [("background", .str "#FF0000"), ("border-radius", .str "0px 8px")] := by
  have hzero : length (.num (.int 0)) = .ok "0px" := by rfl
  have hcolor : color (.obj [("r", .num (.int 1))]) .null = .ok "#FF0000" := by
    have hfull : hexPair 255 = ['F', 'F'] := by cbv
    have hnone : hexPair 0 = ['0', '0'] := by cbv
    simp [color, channel, alpha, List.lookup_cons, Json.number?, Number.atLeast, hfull, hnone]
  have hsize : size (.obj plainCard) = .ok [] := by rfl
  have hlayout : layout (.obj plainCard) = .ok [] := by rfl
  have hfill : fill (.obj plainCard) false = .ok (declare "background" "#FF0000") := by
    have hpaint : firstSolid [.obj (solid 1)] = .ok (some (.obj (solid 1))) := by rfl
    have hpaintColor : paintColor (.obj (solid 1)) = .ok "#FF0000" := hcolor
    simp [fill, solidPaint, plainCard, card, List.lookup_cons, hpaint, hpaintColor]
  have hborder : border (.obj plainCard) = .ok [] := by rfl
  have hcorners : corners (.obj plainCard) = .ok (declare "border-radius" "0px 8px") := by
    have hround : (Json.num (.int 8)).isTruthy = true := rfl
    have hradii : lengths [.num (.int 0), .num (.int 8)] = .ok ["0px", "8px"] := by
      simp [lengths, hzero, length_eight]
    simp [corners, plainCard, card, List.lookup_cons, hround, hradii]
  have hshadows : shadows (.obj plainCard) = .ok [] := by rfl
  have hopacity : opacity (.obj plainCard) = .ok [] := by rfl
  have htype : (Json.obj plainCard).get "type" = .ok (.str "FRAME") := rfl
  simp [extract, htype, hsize, hlayout, hfill, hborder, hcorners, hshadows, hopacity, declare]

theorem extract_conceals_card : Relation.EqvGen Differs plainCard dressedCard ∧
    extract (.obj dressedCard) =
      .ok [("background", .str "#FF0000"), ("border-radius", .str "0px 8px")] :=
  ⟨dressedCard_differs, (extract_conceals dressedCard_differs).symm.trans extract_plainCard⟩

end DesignComponents.Css
