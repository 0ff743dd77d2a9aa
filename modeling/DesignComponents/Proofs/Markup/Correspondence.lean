import DesignComponents.Proofs.Markup.Conversion
import DesignComponents.Proofs.Tree.Lineage

/-!
Presentation trees and the scenes they are of. A tree shows the nodes that lie in nothing but
components, each once and in their order, and all its texts are theirs.
-/

namespace DesignComponents

/-! ### What a tree holds -/

namespace Markup

mutual

/-- The texts of a tree from the left to the right. -/
def texts : Markup → List Json
  | .text content => [content]
  | .leaf _ _ => []
  | .box _ _ ms => textsAll ms

def textsAll : List Markup → List Json
  | [] => []
  | m :: ms => texts m ++ textsAll ms

end

mutual

/-- The elements of a tree, from the top down and from the left to the right. -/
def elements : Markup → List Markup
  | .text _ => []
  | .leaf type css => [.leaf type css]
  | .box type css ms => .box type css ms :: elementsAll ms

def elementsAll : List Markup → List Markup
  | [] => []
  | m :: ms => elements m ++ elementsAll ms

end

theorem textsAll_eq (ms : List Markup) : textsAll ms = ms.flatMap texts := by
  induction ms with
  | nil => rfl
  | cons m ms ih => rw [textsAll, ih, List.flatMap_cons]

theorem elementsAll_eq (ms : List Markup) : elementsAll ms = ms.flatMap elements := by
  induction ms with
  | nil => rfl
  | cons m ms ih => rw [elementsAll, ih, List.flatMap_cons]

end Markup

/-! ### What is shown of a scene -/

namespace NodeKind

/-- The kinds of the nodes of which more than a type is shown. -/
def told : List NodeKind := [.component, .instance_, .text]

/-- Each of these kinds is that of one type only, its name. -/
theorem ofType_eq_iff {k : NodeKind} (hk : k ∈ told) (type : String) :
    ofType type = k ↔ type = k.name := by
  have hnames : ∀ e ∈ types, e.2 ∈ told → e.1 = e.2.name := by decide
  have hkinds : ∀ k ∈ told, ofType k.name = k := by decide
  constructor
  · intro h
    have hlookup : types.lookup type = some k := by
      rw [ofType, Option.getD_eq_iff] at h
      rcases h with h | ⟨-, rfl⟩
      · exact h
      · exact absurd hk (by decide)
    obtain ⟨before, after, heq, -⟩ := List.lookup_eq_some_iff.1 hlookup
    exact hnames (type, k) (by simp [heq]) hk
  · rintro rfl
    exact hkinds k hk

end NodeKind

namespace Node

/-- The nodes of a scene that lie in components only, from the top down and from the left to the
right. -/
def shown (n : Node) : List Node := n.within fun n : Node => n.fieldText "type" == "COMPONENT"

variable {n : Node}

theorem IsScene.kind_eq_iff (hn : n.IsScene) {k : NodeKind} (hk : k ∈ NodeKind.told) :
    n.kind = .ok k ↔ n.fieldText "type" = k.name := by
  have hkind : n.kind = .ok (NodeKind.ofType (n.fieldText "type")) := by
    rw [kind, NodeKind.ofNode, hn.getOr_text "type" rfl]
    simp
  rw [hkind, Except.ok.injEq, NodeKind.ofType_eq_iff hk]

theorem shown_component (h : n.fieldText "type" = "COMPONENT") :
    n.shown = n :: n.children.flatMap shown := by
  rw [shown, Tree.within_eq, if_pos (by simpa using h)]
  rfl

theorem shown_other (h : n.fieldText "type" ≠ "COMPONENT") : n.shown = [n] := by
  rw [shown, Tree.within_eq, if_neg (by simpa using h)]

end Node

namespace Document

/-- A node is shown as an element by its type, and those in a component as the elements in its
box. -/
inductive ShownAs (d : Document) : Node → Markup → Prop
  | component {n : Node} {css : Option Css} {ms : List Markup}
    (type : n.fieldText "type" = "COMPONENT")
    (style : (d.css n).soft.result = .ok css)
    (below : List.Forall₂ (ShownAs d) n.children ms) :
    ShownAs d n (.box (.str "Box") css ms)
  | text {n : Node} {css : Option Css}
    (type : n.fieldText "type" = "TEXT")
    (style : (d.css n).soft.result = .ok css) :
    ShownAs d n (.box (.str "Typography") css [.text (.str (n.fieldText "characters"))])
  | instance_ {n : Node} {css : Option Css}
    (type : n.fieldText "type" = "INSTANCE")
    (style : (d.css n).soft.result = .ok css) :
    ShownAs d n (.leaf (.str (n.fieldText "name")) css)
  | bare {n : Node} (type : n.fieldText "type" ∉ ["COMPONENT", "INSTANCE", "TEXT"]) :
    ShownAs d n (.leaf (.str (n.fieldText "type")) (some []))

/-- The texts of the text nodes that are shown. -/
def shownTexts (n : Node) : List Json :=
  (n.shown.filter fun n => n.fieldText "type" == "TEXT").map fun n =>
    .str (n.fieldText "characters")

variable {d : Document} {n : Node} {m : Markup}

theorem Converts.shownAs (hn : n.IsScene) (h : d.Converts n m) : d.ShownAs n m := by
  induction n using Tree.induction generalizing m with
  | node s ns ih =>
    cases h with
    | component hk hcss hbelow =>
      refine .component ((hn.kind_eq_iff (by decide)).1 hk) hcss ?_
      exact Tree.forall₂_imp_of_mem hbelow fun c hc u hu => ih c hc (hn.mem_children hc).1 hu
    | instance_ hk hcss htag =>
      obtain rfl := Except.ok.inj (htag.symm.trans (hn.getOr_text "name" rfl))
      exact .instance_ ((hn.kind_eq_iff (by decide)).1 hk) hcss
    | text hk hcss hcontent =>
      obtain rfl := Except.ok.inj (hcontent.symm.trans (hn.getOr_text "characters" rfl))
      exact .text ((hn.kind_eq_iff (by decide)).1 hk) hcss
    | bare hk hother htag =>
      obtain rfl := Except.ok.inj (htag.symm.trans (hn.getOr_text "type" rfl))
      -- a type that is told of belongs to one kind, and the node is of another
      have hnone : ∀ j ∈ NodeKind.told, Node.fieldText (.node s ns) "type" ≠ j.name := by
        intro j hj hname
        obtain rfl := Except.ok.inj (hk.symm.trans ((hn.kind_eq_iff hj).2 hname))
        simp [NodeKind.told, hother] at hj
      exact .bare (by simpa [NodeKind.told, NodeKind.name] using hnone)

theorem ShownAs.elements (h : d.ShownAs n m) : List.Forall₂ d.ShownAs n.shown m.elements := by
  induction n using Tree.induction generalizing m with
  | node s ns ih =>
    cases h with
    | component htype hcss hbelow =>
      rw [Node.shown_component htype, Markup.elements, Markup.elementsAll_eq]
      -- nodes and elements are put together from one row for each child
      have hrows := Tree.forall₂_imp_of_mem hbelow fun c hc u hu => ih c hc hu
      exact .cons (.component htype hcss hbelow) (List.rel_flatMap hrows fun _ _ hrow => hrow)
    | text htype hcss =>
      rw [Node.shown_other (by simp [htype])]
      exact .cons (.text htype hcss) .nil
    | instance_ htype hcss =>
      rw [Node.shown_other (by simp [htype])]
      exact .cons (.instance_ htype hcss) .nil
    | bare htype =>
      rw [Node.shown_other fun hcomponent => by simp [hcomponent] at htype]
      exact .cons (.bare htype) .nil

theorem shownTexts_component (h : n.fieldText "type" = "COMPONENT") :
    shownTexts n = n.children.flatMap shownTexts := by
  rw [shownTexts, Node.shown_component h, List.filter_cons_of_neg (by simp [h]),
    List.filter_flatMap, List.map_flatMap]
  rfl

theorem ShownAs.texts (h : d.ShownAs n m) : shownTexts n = m.texts := by
  induction n using Tree.induction generalizing m with
  | node s ns ih =>
    cases h with
    | component htype hcss hbelow =>
      have hrows := Tree.forall₂_imp_of_mem hbelow fun c hc u hu => ih c hc hu
      rw [← List.forall₂_map_right_iff, ← List.forall₂_map_left_iff, List.forall₂_eq_eq_eq] at hrows
      rw [shownTexts_component htype, Markup.texts, Markup.textsAll_eq, List.flatMap_def,
        List.flatMap_def, ← hrows]
    | text htype hcss =>
      rw [shownTexts, Node.shown_other (by simp [htype])]
      simp [htype, Markup.texts, Markup.textsAll]
    | instance_ htype hcss =>
      rw [shownTexts, Node.shown_other (by simp [htype])]
      simp [htype, Markup.texts]
    | bare htype =>
      simp only [List.mem_cons, List.not_mem_nil, or_false, not_or] at htype
      rw [shownTexts, Node.shown_other htype.1]
      simp [htype.2.2, Markup.texts]

/-- A scene is converted to a tree whose elements are, one by one and in order, those as which the
nodes are shown that lie in components only. Its texts are the texts of the text nodes among them. -/
theorem convert_shows (d : Document) (hn : n.IsScene) :
    ∃ m, (d.convert n).result = .ok m ∧ List.Forall₂ d.ShownAs n.shown m.elements ∧
      m.texts = shownTexts n := by
  obtain ⟨m, hm, -⟩ := convert_yields d hn
  have hshown : d.ShownAs n m := (converts_of_ok hm).shownAs hn
  exact ⟨m, hm, hshown.elements, hshown.texts.symm⟩

/-- Components in a component, equal texts, and texts in an instance and a frame. -/
def badge : Json :=
  let scene (type id : String) (fields : List (String × Json)) (children : List Json) : Json :=
    .obj ([("type", .str type), ("id", .str id), ("children", .arr children)] ++ fields)
  let text (id content : String) : Json := scene "TEXT" id [("characters", .str content)] []
  scene "COMPONENT" "0" [] [
    text "1" "New",
    scene "COMPONENT" "2" [] [
      scene "INSTANCE" "3" [("name", .str "Icon")] [text "4" "Star"],
      scene "TEXT" "5" [] []],
    scene "FRAME" "6" [] [text "7" "Draft"],
    text "8" "New"]

theorem convert_shows_badge :
    ∃ d m, ofJson (.obj [("document", badge)]) .null = .ok d ∧ (d.convert d.root).result = .ok m ∧
      List.Forall₂ d.ShownAs d.root.shown m.elements ∧
      d.root.shown.map (fun n => n.fieldText "id") = ["0", "1", "2", "3", "5", "6", "8"] ∧
      m.texts = [.str "New", .str "", .str "New"] := by
  have hfile : Shape.file (.obj [("document", badge)]) = true := by decide
  have hvars : Shape.orNull Shape.variableFile .null = true := by decide
  obtain ⟨d, hd, -⟩ := ofJson_yields hfile hvars
  have hroot : d.root = Node.ofJson (some []) badge := by
    obtain rfl := Except.ok.inj (hd.symm.trans rfl)
    rfl
  obtain ⟨m, hm, helements, htexts⟩ := convert_shows d ⟨some [], badge, hroot, by decide⟩
  rw [hroot] at htexts
  exact ⟨d, m, hd, hm, helements, by rw [hroot]; rfl, htexts⟩

end Document

end DesignComponents
