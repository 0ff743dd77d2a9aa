import DesignComponents.Proofs.Document.Ownership
import DesignComponents.Proofs.Outline.Typed

/-!
Outlines of nodes, be they a document's own or not: they tell of each node what may be told of it,
and go on below the nodes that the document does not know.
-/

namespace DesignComponents

/-- What is asked of the document is left out, save the style. -/
structure Facts.IsUnknown (f : Facts) : Prop where
  instanceOf : f.instanceOf = none
  propertyValues : f.propertyValues = none
  propertySchema : f.propertySchema = none
  modes : f.modes = none

theorem Node.IsScene.isHost {n : Node} (h : n.IsScene) : n.IsHost := by
  obtain ⟨place, v, rfl, -⟩ := h
  exact isHost_ofJson place v

namespace Document

/-- The outline tells of a node, and of those walked below it, what the document knows. -/
inductive Outlined (d : Document) : Node → Outline → Prop
  | node {n : Node} {k : NodeKind} {f : Facts} {os : List Outline}
    (kind : n.kind = .ok k)
    (style : k.policy.extractsCss = true → d.Styles n f.css)
    (bare : k.policy.extractsCss = false → f.css = none)
    (unknown : ¬ d.Indexes n → f.IsUnknown)
    (below : List.Forall₂ (Outlined d) (k.kept n.children) os) :
    Outlined d n (.node f os)

variable {d : Document} {n : Node} {k : NodeKind} {f g : Facts} {css : Option Css}

theorem styleOf_styles (hd : d.IsPlain) (hn : d.Meets n) (hs : n.IsScene)
    (hk : k.policy.extractsCss = true) (h : (d.styleOf n k).result = .ok css) :
    d.Styles n css := by
  rw [styleOf, if_pos hk] at h
  exact hd.styles hn hs h

theorem styleOf_bare (hk : k.policy.extractsCss = false) (h : (d.styleOf n k).result = .ok css) :
    css = none := by
  rw [styleOf, if_neg (by simp [hk])] at h
  exact (Except.ok.inj h).symm

theorem factsByKind_unknown (hd : d.IsPlain) (hn : d.Meets n) (hno : ¬ d.Indexes n)
    (hf : f.IsUnknown) (h : (d.factsByKind n k f).result = .ok g) : g.IsUnknown := by
  obtain ⟨hinstance, hvalues, hschema, hmodes⟩ := hf
  cases k with
  | instance_ =>
    simp only [factsByKind, Traced.bind_result, bind_eq_ok] at h
    obtain ⟨main, hmain, values, hset, h⟩ := h
    obtain rfl := hd.soft_eq_none hn hno hmain
    obtain rfl := hd.soft_eq_none hn hno hset
    obtain rfl := Except.ok.inj h
    exact ⟨rfl, rfl, hschema, hmodes⟩
  | component =>
    simp only [factsByKind, Traced.bind_result, bind_eq_ok] at h
    obtain ⟨values, hset, modes, hexplicit, h⟩ := h
    obtain rfl := hd.soft_eq_none hn hno hset
    obtain rfl := hd.soft_eq_none hn hno hexplicit
    obtain rfl := Except.ok.inj h
    exact ⟨hinstance, rfl, hschema, rfl⟩
  | componentSet =>
    simp only [factsByKind, Traced.bind_result, bind_eq_ok] at h
    obtain ⟨schema, hdefined, h⟩ := h
    obtain rfl := hd.soft_eq_none hn hno hdefined
    obtain rfl := Except.ok.inj h
    exact ⟨hinstance, hvalues, rfl, hmodes⟩
  | other =>
    simp only [factsByKind, Traced.bind_result, bind_eq_ok] at h
    obtain ⟨_, -, _, -, h⟩ := h
    obtain rfl := Except.ok.inj h
    exact ⟨hinstance, hvalues, hschema, hmodes⟩
  | _ =>
    obtain rfl := Except.ok.inj h
    exact ⟨hinstance, hvalues, hschema, hmodes⟩

theorem Outlined.of_walk (hd : d.IsPlain) (hn : d.Meets n) (hs : n.IsScene) {o : Outline}
    (h : (d.walk n).map Traced.result = o.map .ok) : d.Outlined n o := by
  induction n using Tree.induction generalizing o with
  | node s ns ih =>
    obtain ⟨f, os⟩ := o
    rw [walk_node, Tree.map_node, Tree.map_node, Tree.node.injEq, Traced.map_result,
      map_eq_ok] at h
    obtain ⟨⟨⟨f', below⟩, hobs, rfl⟩, hbelow⟩ := h
    obtain ⟨k, hk, -, -, hstyle, hfacts, hdescent⟩ := observe_steps hobs
    refine .node hk (fun hcss => styleOf_styles hd hn hs hcss hstyle)
      (fun hbare => styleOf_bare hbare hstyle) (fun hno => ?_) ?_
    · exact factsByKind_unknown hd hn hno ⟨rfl, rfl, rfl, rfl⟩ hfacts
    · have hkept : below.kept ns = k.kept ns := descent_kept hs.isHost hdescent
      simp only [descentOf, hobs, hkept, List.map_map] at hbelow
      refine Tree.forall₂_of_map_eq hbelow fun m hm u hu => ?_
      have hmem : m ∈ ns := below.mem_of_mem_kept (hkept ▸ hm)
      exact ih m hmem (hn.child hmem) (hs.mem_children hmem).1 hu

theorem visit_outlined (hd : d.IsPlain) (hn : d.Meets n) (hs : n.IsScene) {o : Outline}
    (h : (d.visit n).result = .ok o) : d.Outlined n o :=
  .of_walk hd hn hs (Traced.settle_eq_ok.1 h)

end Document

end DesignComponents
