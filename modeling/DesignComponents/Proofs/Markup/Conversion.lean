import DesignComponents.Proofs.Markup.Printable

/-!
How markup comes about from a node and the nodes below it, with one rule for each of the ways in
which a node is presented.
-/

namespace DesignComponents.Document

/-- What a node is converted to, given what the nodes below a component are. -/
inductive Converts (d : Document) : Node → Markup → Prop
  | component {n : Node} {css : Option Css} {ms : List Markup}
    (kind : n.kind = .ok .component)
    (style : (d.css n).soft.result = .ok css)
    (below : List.Forall₂ (Converts d) n.children ms) :
    Converts d n (.box (.str "Box") css ms)
  | instance_ {n : Node} {css : Option Css} {name : Json}
    (kind : n.kind = .ok .instance_)
    (style : (d.css n).soft.result = .ok css)
    (tag : n.value.getOr "name" (.str "") = .ok name) :
    Converts d n (.leaf name css)
  | text {n : Node} {css : Option Css} {content : Json}
    (kind : n.kind = .ok .text)
    (style : (d.css n).soft.result = .ok css)
    (characters : n.value.getOr "characters" (.str "") = .ok content) :
    Converts d n (.box (.str "Typography") css [.text content])
  | bare {n : Node} {k : NodeKind} {type : Json}
    (kind : n.kind = .ok k)
    (other : k ≠ .component ∧ k ≠ .instance_ ∧ k ≠ .text)
    (tag : n.value.getOr "type" (.str "") = .ok type) :
    Converts d n (.leaf type (some []))

variable {d : Document} {n : Node}

theorem presentAll_node (d : Document) (s : Site) (ns : List Node) :
    d.presentAll (.node s ns) = .node (d.present (.node s ns))
      (if showsChildren (d.present (.node s ns)) then ns.map d.presentAll else []) := by
  rw [presentAll, presentBelow_eq]

/-- What a node is presented as says what it is converted to. -/
theorem Converts.of_present {p : Presentation} {ts : List (Tree Presentation)}
    (h : (d.present n).result = .ok p)
    (hbelow : ∀ css, p = .box css →
      List.Forall₂ d.Converts n.children (ts.map Markup.ofPresentation)) :
    d.Converts n (Markup.ofPresentation (.node p ts)) := by
  simp only [present, Traced.bind_result, Traced.lift_result, bind_eq_ok] at h
  obtain ⟨k, hk, h⟩ := h
  cases k with
  | component =>
    simp only [Traced.bind_result, Traced.lift_result, bind_eq_ok] at h
    -- what is listed as children has been walked already
    obtain ⟨css, hcss, _, -, _, -, h⟩ := h
    obtain rfl := Except.ok.inj h
    rw [Markup.ofPresentation, Markup.ofPresentations_eq]
    exact .component hk hcss (hbelow css rfl)
  | instance_ =>
    simp only [Traced.bind_result, Traced.lift_result, bind_eq_ok] at h
    obtain ⟨css, hcss, name, hname, h⟩ := h
    obtain rfl := Except.ok.inj h
    exact .instance_ hk hcss hname
  | text =>
    simp only [Traced.bind_result, Traced.lift_result, bind_eq_ok] at h
    obtain ⟨css, hcss, content, hcontent, h⟩ := h
    obtain rfl := Except.ok.inj h
    exact .text hk hcss hcontent
  | _ =>
    simp only [Traced.bind_result, Traced.lift_result, bind_eq_ok] at h
    obtain ⟨type, htype, h⟩ := h
    obtain rfl := Except.ok.inj h
    exact .bare hk (by decide) htype

theorem Converts.of_presentAll {t : Tree Presentation}
    (h : (d.presentAll n).map Traced.result = t.map .ok) :
    d.Converts n (Markup.ofPresentation t) := by
  induction n using Tree.induction generalizing t with
  | node s ns ih =>
    obtain ⟨p, ts⟩ := t
    rw [presentAll_node, Tree.map_node, Tree.map_node, Tree.node.injEq] at h
    obtain ⟨hp, hts⟩ := h
    refine .of_present hp ?_
    rintro css rfl
    have hshows : showsChildren (d.present (.node s ns)) = true := by rw [showsChildren, hp]
    rw [hshows, if_pos rfl, List.map_map] at hts
    rw [List.forall₂_map_right_iff]
    exact Tree.forall₂_of_map_eq hts fun m hm u hu => ih m hm hu

theorem converts_of_ok {m : Markup} (h : (d.convert n).result = .ok m) : d.Converts n m := by
  rw [convert, Traced.map_result, map_eq_ok] at h
  obtain ⟨t, ht, rfl⟩ := h
  exact .of_presentAll (Traced.settle_eq_ok.1 ht)

end DesignComponents.Document
