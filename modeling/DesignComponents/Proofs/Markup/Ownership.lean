import DesignComponents.Proofs.Markup.Conversion
import DesignComponents.Proofs.Outline.Ownership

/-!
Presentations of nodes, be they a document's own or not. Neither a walk nor a presentation fails
on a node that the document does not know: its style is left out, and what is below it is not.
-/

namespace DesignComponents.Document

/-- The markup shows of a node, and of those presented below it, what the document knows. -/
inductive Presented (d : Document) : Node → Markup → Prop
  | component {n : Node} {css : Option Css} {ms : List Markup}
    (kind : n.kind = .ok .component)
    (style : d.Styles n css)
    (below : List.Forall₂ (Presented d) n.children ms) :
    Presented d n (.box (.str "Box") css ms)
  | instance_ {n : Node} {css : Option Css} {name : Json}
    (kind : n.kind = .ok .instance_)
    (style : d.Styles n css)
    (tag : n.value.getOr "name" (.str "") = .ok name) :
    Presented d n (.leaf name css)
  | text {n : Node} {css : Option Css} {content : Json}
    (kind : n.kind = .ok .text)
    (style : d.Styles n css)
    (characters : n.value.getOr "characters" (.str "") = .ok content) :
    Presented d n (.box (.str "Typography") css [.text content])
  | bare {n : Node} {k : NodeKind} {type : Json}
    (kind : n.kind = .ok k)
    (other : k ≠ .component ∧ k ≠ .instance_ ∧ k ≠ .text)
    (tag : n.value.getOr "type" (.str "") = .ok type) :
    Presented d n (.leaf type (some []))

variable {d : Document} {n : Node}

theorem Converts.presented (hd : d.IsPlain) (hn : d.Meets n) (hs : n.IsScene) {m : Markup}
    (h : d.Converts n m) : d.Presented n m := by
  induction n using Tree.induction generalizing m with
  | node s ns ih =>
    cases h with
    | component hk hcss hbelow =>
      refine .component hk (hd.styles hn hs hcss) ?_
      exact Tree.forall₂_imp_of_mem hbelow fun c hc u hu =>
        ih c hc (hn.child hc) (hs.mem_children hc).1 hu
    | instance_ hk hcss htag => exact .instance_ hk (hd.styles hn hs hcss) htag
    | text hk hcss hcontent => exact .text hk (hd.styles hn hs hcss) hcontent
    | bare hk hother htag => exact .bare hk hother htag

theorem convert_presented (hd : d.IsPlain) (hn : d.Meets n) (hs : n.IsScene) {m : Markup}
    (h : (d.convert n).result = .ok m) : d.Presented n m :=
  (converts_of_ok h).presented hd hn hs

/-- Nodes of a document with fields of their types, and such nodes of none, are walked and
presented, with those styles and facts that the document knows. It knows all of them below a node
that it holds if the identifiers of all nodes differ. -/
theorem soft_misses {file variableFile : Json} (hf : Shape.file file = true)
    (hv : Shape.orNull Shape.variableFile variableFile = true) :
    ∃ d, ofJson file variableFile = .ok d ∧
      (∀ n, d.Meets n → n.IsScene →
        (∃ o, (d.visit n).result = .ok o ∧ d.Outlined n o) ∧
          ∃ m, (d.convert n).result = .ok m ∧ d.Presented n m) ∧
      ((∀ l ∈ d.root.lineages, (Node.id? l.node).isSome) →
        (d.root.lineages.map Lineage.id?).Nodup →
          ∀ n, d.Indexes n → ∀ l ∈ n.lineages, d.Indexes l.node) := by
  obtain ⟨d, hd, htyped⟩ := ofJson_yields hf hv
  have hplain := plain_of_file hf hd
  refine ⟨d, hd, fun n hn hs => ⟨?_, ?_⟩, fun hids hnodup n hn l hl => ?_⟩
  · obtain ⟨o, ho, -⟩ := visit_yields htyped hs
    exact ⟨o, ho, visit_outlined hplain hn hs ho⟩
  · obtain ⟨m, hm, -⟩ := convert_yields d hs
    exact ⟨m, hm, convert_presented hplain hn hs hm⟩
  · exact hplain.indexes_below hids hnodup hn hl

/-- Two instances below a component that have one identifier: the document holds the second. -/
def sharedIds : Json :=
  let scene (type id : String) (children : List Json) : Json :=
    .obj [("type", .str type), ("id", .str id), ("children", .arr children)]
  .obj [("document", scene "COMPONENT" "0" [scene "INSTANCE" "1" [], scene "INSTANCE" "1" []])]

theorem soft_misses_shared :
    ∃ d o m, ofJson sharedIds .null = .ok d ∧
      (d.visit d.root).result = .ok o ∧ d.Outlined d.root o ∧
      (d.convert d.root).result = .ok m ∧ d.Presented d.root m ∧
      o.preorder.map (fun f => f.css.isSome) = [false, false, true] := by
  have hfile : Shape.file sharedIds = true := by decide
  have hvars : Shape.orNull Shape.variableFile .null = true := by decide
  obtain ⟨d, hd, hmet, -⟩ := soft_misses hfile hvars
  have hroot := Tree.root_mem d.root
  have hscene := isScene_of_mem (by decide) hd hroot
  obtain ⟨⟨o, ho, houtlined⟩, m, hm, hpresented⟩ := hmet d.root (.inl ⟨_, hroot, rfl⟩) hscene
  refine ⟨d, o, m, hd, ho, houtlined, hm, hpresented, ?_⟩
  obtain rfl := Except.ok.inj (hd.symm.trans rfl)
  obtain rfl := Except.ok.inj ((visit_eq_ok.1 ho).symm.trans rfl)
  rfl

end DesignComponents.Document
