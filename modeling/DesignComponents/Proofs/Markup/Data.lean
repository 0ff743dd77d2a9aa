import DesignComponents.Proofs.Markup.Form
import DesignComponents.Proofs.Outline.Data

/-!
Presentation trees read from their data. A text is no element, and an element without children to
speak of is none with an empty list of them.
-/

namespace DesignComponents.Markup

mutual

def ofJson? : Json → Option Markup
  | .str s => some (.text (.str s))
  | .obj fs => do
    let type ← fs.lookup "type"
    let css ← readKnown? Json.fields? (fs.lookup "css")
    match ← childrenIn? fs with
    | none => some (.leaf type css)
    | some children => some (.box type css children)
  | _ => none

/-- The children among some fields, if there are any that can be read. -/
def childrenIn? : List (String × Json) → Option (Option (List Markup))
  | [] => some none
  | (name, v) :: fs => if name = "children" then (childrenOf? v).map some else childrenIn? fs

def childrenOf? : Json → Option (List Markup)
  | .arr xs => ofJsonAll? xs
  | _ => none

def ofJsonAll? : List Json → Option (List Markup)
  | [] => some []
  | x :: xs => do
    let m ← ofJson? x
    let ms ← ofJsonAll? xs
    some (m :: ms)

end

theorem induction {P : Markup → Prop} (text : ∀ content, P (.text content))
    (leaf : ∀ type css, P (.leaf type css))
    (box : ∀ type css children, (∀ m ∈ children, P m) → P (.box type css children)) : ∀ m, P m
  | .text content => text content
  | .leaf type css => leaf type css
  | .box type css children => box type css children fun m _ => induction text leaf box m

theorem childrenIn?_eq (fs : List (String × Json)) :
    childrenIn? fs = readKnown? childrenOf? (fs.lookup "children") := by
  induction fs with
  | nil => rfl
  | cons f fs ih =>
    obtain ⟨name, v⟩ := f
    by_cases hname : name = "children"
    · simp [childrenIn?, hname, readKnown?]
    · simp [childrenIn?, hname, ih, List.lookup_cons, beq_false_of_ne (Ne.symm hname)]

theorem ofJson?_leaf (type : Json) (css : Option Css) :
    ofJson? (.obj (elementFields type css)) = some (.leaf type css) := by
  rw [ofJson?, childrenIn?_eq]
  cases css <;> rfl

theorem ofJson?_box (type : Json) (css : Option Css) {cs : List Json} {ms : List Markup}
    (h : ofJsonAll? cs = some ms) :
    ofJson? (.obj (elementFields type css ++ [("children", .arr cs)])) =
      some (.box type css ms) := by
  have hchildren : readKnown? childrenOf? (some (Json.arr cs)) = some (some ms) := by
    simp [readKnown?, childrenOf?, h]
  have hlookup : (elementFields type css ++ [("children", Json.arr cs)]).lookup "children" =
      some (Json.arr cs) := by
    cases css <;> rfl
  rw [ofJson?, childrenIn?_eq, hlookup, hchildren]
  cases css <;> rfl

theorem ofJsonAll?_of_toJsonAll {ms : List Markup} {vs : List Json}
    (h : ∀ m ∈ ms, ∀ v, m.toJson = .ok v → ofJson? v = some m) (hvs : toJsonAll ms = .ok vs) :
    ofJsonAll? vs = some ms := by
  induction ms generalizing vs with
  | nil =>
    obtain rfl := Except.ok.inj hvs
    rfl
  | cons m ms ih =>
    rw [List.forall_mem_cons] at h
    simp only [toJsonAll, bind_eq_ok, pure_eq_ok] at hvs
    obtain ⟨w, hw, ws, hws, hvs⟩ := hvs
    obtain rfl := Except.ok.inj hvs
    simp [ofJsonAll?, h.1 w hw, ih h.2 hws]

theorem ofJson?_of_toJson {m : Markup} {v : Json} (h : m.toJson = .ok v) : ofJson? v = some m := by
  induction m using induction generalizing v with
  | text content =>
    cases content with
    | str s =>
      obtain rfl := Except.ok.inj h
      rfl
    | _ => cases h
  | leaf type css =>
    obtain rfl := Except.ok.inj h
    exact ofJson?_leaf type css
  | box type css children ih =>
    rw [toJson, bind_eq_ok] at h
    obtain ⟨cs, hcs, h⟩ := h
    obtain rfl := Except.ok.inj h
    exact ofJson?_box type css (ofJsonAll?_of_toJsonAll ih hcs)

variable {texts : String → Prop} {styles : Css → Prop}

theorem toJsonAll_yields {ms : List Markup} (h : ∀ m ∈ ms, ∃ v, m.toJson = .ok v) :
    ∃ vs, toJsonAll ms = .ok vs := by
  induction ms with
  | nil => exact ⟨[], rfl⟩
  | cons m ms ih =>
    rw [List.forall_mem_cons] at h
    obtain ⟨⟨v, hv⟩, hms⟩ := h
    obtain ⟨vs, hvs⟩ := ih hms
    exact ⟨v :: vs, by simp [toJsonAll, hv, hvs]⟩

/-- A tree whose contents are texts has data. -/
theorem Consists.toJson_yields {m : Markup} (h : Consists texts styles m) :
    ∃ v, m.toJson = .ok v := by
  induction h with
  | @text s _ => exact ⟨.str s, rfl⟩
  | leaf _ => exact ⟨_, rfl⟩
  | box _ _ ih =>
    obtain ⟨vs, hvs⟩ := toJsonAll_yields ih
    exact ⟨_, by rw [toJson, hvs]; rfl⟩

end DesignComponents.Markup
