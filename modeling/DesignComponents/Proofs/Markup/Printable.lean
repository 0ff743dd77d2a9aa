import DesignComponents.Markup.Convert
import DesignComponents.Markup.Render
import DesignComponents.Proofs.Document.Query
import DesignComponents.Proofs.Outline.Settle

/-!
Nodes with fields of their types are presented, and what is presented of them can be printed.
-/

namespace DesignComponents

/-- What becomes a tag or a content is a text. -/
def Presentation.IsPrintable : Presentation → Prop
  | .box _ => True
  | .instance_ name _ => ∃ s, name = .str s
  | .typography _ content => ∃ s, content = .str s
  | .bare type => ∃ s, type = .str s

namespace Markup

/-- Printed at any depth, the tree gives lines. -/
def IsPrintable (m : Markup) : Prop := ∀ indent, Yields (m.lines indent) fun _ => True

theorem tagName_yields (s : String) : Yields (tagName (.str s)) fun _ => True := by
  simp [tagName]

theorem leaf_printable (s : String) (css : Option Css) : IsPrintable (.leaf (.str s) css) := by
  intro indent
  rw [lines]
  exact (tagName_yields s).bind fun _ _ => by simp

theorem text_printable (s : String) : IsPrintable (.text (.str s)) := by
  intro indent
  simp [lines]

theorem linesAll_yields {ms : List Markup} (h : ∀ m ∈ ms, IsPrintable m) (indent : Int) :
    Yields (linesAll indent ms) fun _ => True := by
  induction ms with
  | nil => simp [linesAll]
  | cons m ms ih =>
    rw [linesAll]
    have hrest := ih fun m hm => h m (.tail _ hm)
    split
    · exact hrest.bind fun _ _ => by simp
    · exact (h m (.head _) indent).bind fun _ _ => hrest.bind fun _ _ => by simp

theorem box_printable (s : String) (css : Option Css) {ms : List Markup}
    (h : ∀ m ∈ ms, IsPrintable m) : IsPrintable (.box (.str s) css ms) := by
  intro indent
  rw [lines]
  apply (tagName_yields s).bind
  intro tag _
  split
  · simp
  · exact (linesAll_yields h (indent + 1)).bind fun _ _ => by simp

theorem ofPresentations_eq (ts : List (Tree Presentation)) :
    ofPresentations ts = ts.map ofPresentation := by
  induction ts with
  | nil => rfl
  | cons t ts ih => rw [ofPresentations, ih, List.map_cons]

theorem ofPresentation_printable {t : Tree Presentation}
    (h : ∀ p ∈ t.preorder, p.IsPrintable) : IsPrintable (ofPresentation t) := by
  induction t using Tree.induction with
  | node p ts ih =>
    simp only [Tree.preorder_node, List.forall_mem_cons, List.mem_flatMap] at h
    obtain ⟨hp, hts⟩ := h
    cases p with
    | box css =>
      rw [ofPresentation, ofPresentations_eq]
      apply box_printable "Box" css
      intro m hm
      obtain ⟨t, ht, rfl⟩ := List.mem_map.1 hm
      exact ih t ht fun q hq => hts q ⟨t, ht, hq⟩
    | instance_ name css =>
      obtain ⟨s, rfl⟩ := hp
      exact leaf_printable s css
    | typography css content =>
      obtain ⟨s, rfl⟩ := hp
      apply box_printable "Typography" css
      intro m hm
      rw [List.mem_singleton.1 hm]
      exact text_printable s
    | bare type =>
      obtain ⟨s, rfl⟩ := hp
      exact leaf_printable s (some [])

end Markup

namespace Node

variable {n : Node}

open Shape

theorem IsScene.kind_yields (hn : n.IsScene) : Yields n.kind fun _ => True := by
  rw [Node.kind, NodeKind.ofNode]
  apply (record_getOr "type" hn.node rfl rfl).bind
  intro type htype
  obtain ⟨s, rfl⟩ := exists_of_text htype
  simp

end Node

namespace Document

variable {d : Document} {n : Node}

open Shape

theorem css_soft_yields (d : Document) (hn : n.IsScene) :
    Yields (d.css n).soft.result fun _ => True :=
  (css_ends d hn).soft trivial

theorem present_yields (d : Document) (hn : n.IsScene) :
    Yields (d.present n).result Presentation.IsPrintable := by
  simp only [present, Traced.bind_result, Traced.lift_result]
  apply hn.kind_yields.bind
  intro kind _
  have hcss := css_soft_yields d hn
  cases kind with
  | component =>
    simp only [Traced.bind_result, Traced.lift_result]
    apply hcss.bind
    intro css _
    apply (record_get "children" hn.node rfl).bind
    intro children h
    apply (elementsOrNone_listOf h).bind
    intro _ _
    exact Yields.ok_iff.2 trivial
  | instance_ =>
    simp only [Traced.bind_result, Traced.lift_result]
    apply hcss.bind
    intro css _
    apply (record_getOr "name" hn.node rfl rfl).bind
    intro name h
    exact Yields.ok_iff.2 (exists_of_text h)
  | text =>
    simp only [Traced.bind_result, Traced.lift_result]
    apply hcss.bind
    intro css _
    apply (record_getOr "characters" hn.node rfl rfl).bind
    intro content h
    exact Yields.ok_iff.2 (exists_of_text h)
  | _ =>
    simp only [Traced.bind_result, Traced.lift_result]
    apply (record_getOr "type" hn.node rfl rfl).bind
    intro type h
    exact Yields.ok_iff.2 (exists_of_text h)

theorem presentBelow_eq (d : Document) (ns : List Node) :
    presentBelow d ns = ns.map d.presentAll := by
  induction ns with
  | nil => rw [presentBelow, List.map_nil]
  | cons n ns ih => rw [presentBelow, ih, List.map_cons]

theorem mem_presentAll (d : Document) {x : Traced Presentation} (hn : n.IsScene)
    (hx : x ∈ (d.presentAll n).preorder) : ∃ m : Node, m.IsScene ∧ x = d.present m := by
  induction n using Tree.induction with
  | node s ns ih =>
    rw [presentAll, Tree.preorder_node, List.mem_cons] at hx
    rcases hx with rfl | hx
    · exact ⟨_, hn, rfl⟩
    · obtain ⟨t, ht, hx⟩ := List.mem_flatMap.1 hx
      split at ht
      case isFalse => cases ht
      case isTrue =>
        rw [presentBelow_eq] at ht
        obtain ⟨m, hm, rfl⟩ := List.mem_map.1 ht
        exact ih m hm (hn.mem_children hm).1 hx

theorem convert_yields (d : Document) (hn : n.IsScene) :
    Yields (d.convert n).result Markup.IsPrintable := by
  rw [convert, Traced.map_result]
  refine (Traced.settle_yields (P := Presentation.IsPrintable) fun x hx => ?_).map fun t ht => ?_
  · obtain ⟨m, hm, rfl⟩ := mem_presentAll d hn hx
    exact present_yields d hm
  · exact Markup.ofPresentation_printable ht

end Document

end DesignComponents
