import DesignComponents.Proofs.Css.Unmarked
import DesignComponents.Proofs.Text.Cut

/-!
Styles as attributes, read back: the text between the two quotes, cut at each semicolon with a blank,
has the properties, and each of them a colon with a blank between its name and its value.
-/

namespace DesignComponents.Css

/-- What stands between the quotes of an attribute. -/
def attributeBody? (cs : List Char) : Option (List Char) :=
  match cutFirst? "style=\"".toList cs with
  | some ([], rest) => if rest.getLast? = some '"' then some rest.dropLast else none
  | _ => none

def readProperty? (part : List Char) : Option (String × Json) :=
  (cutFirst? [':', ' '] part).map fun p => (String.ofList p.1, .str (String.ofList p.2))

def readAttribute? (text : String) : Option Css := do
  let body ← attributeBody? text.toList
  (cutAll [';', ' '] body).mapM readProperty?

variable {node : Json} {css : Css}

theorem attributeBody?_eq_some (body : List Char) :
    attributeBody? ("style=\"".toList ++ body ++ ['"']) = some body := by
  have hcut : cutFirst? "style=\"".toList ("style=\"".toList ++ body ++ ['"']) =
      some ([], body ++ ['"']) := by
    have hopening : "style=\"".toList = 's' :: "tyle=\"".toList := by decide
    rw [List.append_assoc, hopening]
    exact cutFirst?_append List.not_mem_nil _
  rw [attributeBody?, hcut]
  simp

/-- A name and a value that are found again. -/
structure IsProperty (e : String × Json) : Prop where
  name : IsUnmarked e.1.toList
  colon_notMem : ':' ∉ e.1.toList
  value : IsPlain e.2

def propertyChars (e : String × Json) : List Char := (e.1 ++ ": " ++ e.2.display).toList

theorem IsProperty.unmarked {e : String × Json} (h : IsProperty e) :
    IsUnmarked (propertyChars e) := by
  obtain ⟨s, hs, hunmarked⟩ := h.value
  have hcolon : IsUnmarked ": ".toList := by decide
  simp only [propertyChars, hs, Json.display_str, String.toList_append, IsUnmarked.append_iff]
  exact ⟨⟨h.name, hcolon⟩, hunmarked⟩

theorem IsProperty.readProperty?_eq {e : String × Json} (h : IsProperty e) :
    readProperty? (propertyChars e) = some e := by
  obtain ⟨s, hs, -⟩ := h.value
  have hchars : propertyChars e = e.1.toList ++ ([':', ' '] ++ s.toList) := by
    simp [propertyChars, hs]
  rw [readProperty?, hchars, cutFirst?_append h.colon_notMem, Option.map_some, String.ofList_toList,
    String.ofList_toList, ← hs]

theorem body_toList (css : Css) : (body css).toList = [';', ' '].intercalate (css.map propertyChars) := by
  rw [body, String.toList_intercalate, List.map_map]
  rfl

theorem mapM_readProperty? (h : ∀ e ∈ css, IsProperty e) :
    (css.map propertyChars).mapM readProperty? = some css := by
  induction css with
  | nil => rfl
  | cons e css ih =>
    rw [List.forall_mem_cons] at h
    rw [List.map_cons, List.mapM_cons, h.1.readProperty?_eq, ih h.2]
    rfl

theorem styleText_eq (hne : css ≠ []) :
    css.styleText.toList = "style=\"".toList ++ (body css).toList ++ ['"'] := by
  cases css with
  | nil => exact absurd rfl hne
  | cons e css =>
    rw [styleText_cons, String.toList_append, String.toList_append]
    rfl

theorem readAttribute?_styleText (hne : css ≠ []) (h : ∀ e ∈ css, IsProperty e) :
    readAttribute? css.styleText = some css := by
  have hparts : cutAll [';', ' '] (body css).toList = css.map propertyChars := by
    rw [body_toList]
    apply cutAll_intercalate (by simpa using hne)
    intro l hl
    obtain ⟨e, he, rfl⟩ := List.mem_map.1 hl
    exact (h e he).unmarked.semicolon_notMem
  rw [readAttribute?, styleText_eq hne, attributeBody?_eq_some]
  simp only [Option.bind_eq_bind, Option.bind_some, hparts, mapM_readProperty? h]

theorem quote_notMem_body (h : ∀ e ∈ css, IsProperty e) : '"' ∉ (body css).toList := by
  rw [body_toList]
  apply notMem_intercalate (by decide)
  intro l hl
  obtain ⟨e, he, rfl⟩ := List.mem_map.1 hl
  exact (h e he).unmarked.quote_notMem

theorem Part.isUnmarked_of_mem : ∀ isText isFlex, ∀ name ∈ all.flatMap (names isText isFlex),
    IsUnmarked name.toList ∧ ':' ∉ name.toList := by
  decide

/-- The names of a style are among those of its parts. -/
theorem extract_names (h : extract node = .ok css) : ∃ isText isFlex, ∀ e ∈ css,
    e.1 ∈ Part.all.flatMap (Part.names isText isFlex) := by
  obtain ⟨type, -, part, hpart, rfl⟩ := extract_eq_ok h
  obtain ⟨isFlex, hflex⟩ : ∃ isFlex : Bool, isFlex = true ↔ IsFlex node := by
    classical exact ⟨decide (IsFlex node), decide_eq_true_iff⟩
  have hfits := Fits.flatMap fun p (_ : p ∈ Part.all) => Part.fits hflex (hpart p)
  exact ⟨_, isFlex, fun e he => hfits.ordered.subset (List.mem_map_of_mem he)⟩

theorem extract_properties (hfont : HasPlainFont node) (h : extract node = .ok css) :
    ∀ e ∈ css, IsProperty e := by
  obtain ⟨isText, isFlex, hnames⟩ := extract_names h
  intro e he
  obtain ⟨hname, hcolon⟩ := Part.isUnmarked_of_mem isText isFlex e.1 (hnames e he)
  exact ⟨hname, hcolon, extract_plain hfont h e he⟩

/-- The attribute of a style has two quotes only and says all that the style says. -/
theorem styleText_reads (h : extract node = .ok css) (hne : css ≠ []) (hfont : HasPlainFont node) :
    (∃ body, css.styleText.toList = "style=\"".toList ++ body ++ ['"'] ∧ '"' ∉ body) ∧
      readAttribute? css.styleText = some css ∧
      ∀ node' css', extract node' = .ok css' → HasPlainFont node' →
        css'.styleText = css.styleText → css' = css := by
  have hproperties := extract_properties hfont h
  have hread := readAttribute?_styleText hne hproperties
  refine ⟨⟨_, styleText_eq hne, quote_notMem_body hproperties⟩, hread, ?_⟩
  intro node' css' h' hfont' htext
  have hne' : css' ≠ [] := by
    rintro rfl
    rw [← htext] at hread
    cases hread
  have hread' := readAttribute?_styleText hne' (extract_properties hfont' h')
  rw [htext, hread] at hread'
  exact (Option.some.inj hread').symm

/-- A text whose font and shadow have names and values with commas and colons of their own. -/
def shadedText : Json :=
  .obj [("type", .str "TEXT"),
    ("effects", .arr [.obj [("type", .str "INNER_SHADOW"), ("radius", .num (.int 8))]]),
    ("style", .obj [("fontFamily", .str "Inter: Display, serif"), ("fontSize", .num (.int 8)),
      ("textAlignHorizontal", .str "RIGHT")])]

def shadedCss : Css :=
  [("box-shadow", .str "inset 0px 0px 8px 0px #000000"),
   ("font-family", .str "Inter: Display, serif"), ("font-size", .str "8px"),
   ("text-align", .str "right")]

theorem extract_shadedText : extract shadedText = .ok shadedCss := by
  have htrue : (Json.num (.int 8)).isTruthy = true := rfl
  have hvisible : (Json.bool true).isTruthy = true := rfl
  have hzero : length (.num (.int 0)) = .ok "0px" := by rfl
  have hcolor : color (.obj []) .null = .ok "#000000" := by
    have hnone : hexPair 0 = ['0', '0'] := by cbv
    simp [color, channel, alpha, Json.number?, Number.atLeast, hnone]
  have hsize : size shadedText = .ok [] := by rfl
  have hlayout : layout shadedText = .ok [] := by rfl
  have hfill : fill shadedText true = .ok [] := by rfl
  have hborder : border shadedText = .ok [] := by rfl
  have hcorners : corners shadedText = .ok [] := by rfl
  have hshadow : shadow (.obj [("type", .str "INNER_SHADOW"), ("radius", .num (.int 8))]) true =
      .ok "inset 0px 0px 8px 0px #000000" := by
    simp [shadow, List.lookup_cons, hzero, length_eight, hcolor]
  have hshadows : shadows shadedText =
      .ok (declare "box-shadow" "inset 0px 0px 8px 0px #000000") := by
    simp [shadows, shadowTexts, shadedText, List.lookup_cons, isVisible, hvisible, Json.isText, hshadow]
  have hopacity : opacity shadedText = .ok [] := by rfl
  have hlower : lower "RIGHT" = "right" := by decide +kernel
  have hfamily : (Json.str "Inter: Display, serif").isTruthy = true := by rfl
  have halign : textAlign (.str "RIGHT") = .ok (declare "text-align" "right") := by
    simp [textAlign, Json.isText, Json.isTruthy, hlower]
  have hfont : font shadedText = .ok (shadedCss.drop 1) := by
    simp [font, shadedText, shadedCss, List.lookup_cons, declareLength, declareWeight,
      Json.orEmpty, htrue, hfamily, halign, length_eight, declare]
  have htype : shadedText.get "type" = .ok (.str "TEXT") := rfl
  simp [extract, htype, hsize, hlayout, hfill, hborder, hcorners, hshadows, hopacity, hfont,
    declare, shadedCss]

theorem styleText_reads_shadedText :
    extract shadedText = .ok shadedCss ∧ readAttribute? shadedCss.styleText = some shadedCss := by
  have hfont : HasPlainFont shadedText := by
    simp only [HasPlainFont, List.forall_mem_cons, List.not_mem_nil, false_implies, implies_true,
      and_true]
    constructor
    all_goals
      rintro v hv -
      obtain rfl := Option.some.inj hv
      exact ⟨_, rfl, by decide⟩
  exact ⟨extract_shadedText, (styleText_reads extract_shadedText (List.cons_ne_nil _ _) hfont).2.1⟩

end DesignComponents.Css
