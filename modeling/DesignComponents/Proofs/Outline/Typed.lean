import DesignComponents.Proofs.Markup.Printable
import DesignComponents.Proofs.Outline.DepthFirst

/-!
Scenes with fields of their types are walked without a fault.
-/

namespace DesignComponents.Document

variable {d : Document} {n : Node}

open Shape

theorem factsByKind_yields (hd : d.IsTyped) (hn : n.IsScene) (k : NodeKind) (f : Facts) :
    Yields (d.factsByKind n k f).result fun _ => True := by
  have hvalues := (variantProperties_ends hd hn).soft trivial
  cases k with
  | instance_ =>
    simp only [factsByKind, Traced.bind_result]
    apply ((mainComponent_ends hd hn).soft (by simp)).bind
    intro main _
    exact hvalues.bind fun _ _ => by simp
  | component =>
    simp only [factsByKind, Traced.bind_result]
    apply hvalues.bind
    intro _ _
    exact ((variableModes_ends d hn).soft (by simp)).bind fun _ _ => by simp
  | componentSet =>
    simp only [factsByKind, Traced.bind_result]
    exact ((propertyDefinitions_ends d hn).soft trivial).bind fun _ _ => by simp
  | other =>
    simp only [factsByKind, Traced.bind_result, Traced.lift_result]
    exact (record_get "type" hn.node rfl).bind fun _ _ => by simp
  | _ => simp [factsByKind]

theorem descent_yields (hn : n.IsScene) (policy : NodePolicy) :
    Yields (descent n policy) fun _ => True := by
  apply (record_get "children" hn.node rfl).bind
  intro children hchildren
  split
  case isTrue => simp
  case isFalse hstop =>
    have htruthy : children.isTruthy := by simp_all
    obtain ⟨xs, rfl, -⟩ :=
      exists_of_listOf (hchildren.resolve_left (by rintro rfl; simp at htruthy))
    split <;> simp

theorem styleOf_yields (d : Document) (hn : n.IsScene) (k : NodeKind) :
    Yields (d.styleOf n k).result fun _ => True := by
  rw [styleOf]
  split
  · exact css_soft_yields d hn
  · simp

theorem observe_yields (hd : d.IsTyped) (hn : n.IsScene) :
    Yields (d.observe n).result fun _ => True := by
  simp only [observe_eq, observeRest, Traced.bind_result, Traced.lift_result]
  apply hn.kind_yields.bind
  intro k _
  apply (record_getOr "name" hn.node rfl rfl).bind
  intro name _
  apply (record_getOr "id" hn.node rfl rfl).bind
  intro id _
  apply (styleOf_yields d hn k).bind
  intro css _
  apply (factsByKind_yields hd hn k _).bind
  intro _ _
  exact (descent_yields hn k.policy).bind fun _ _ => by simp

/-- From nodes of a kind that is kept below, only nodes of that kind are reached. -/
theorem mem_walk (d : Document) {P : Node → Prop} (hP : ∀ n, P n → ∀ m ∈ n.children, P m)
    (hn : P n) {x : Traced Facts} (hx : x ∈ (d.walk n).preorder) :
    ∃ m, P m ∧ x = Prod.fst <$> d.observe m := by
  induction n using Tree.induction with
  | node s ns ih =>
    rw [walk_node, Tree.preorder_node, List.mem_cons] at hx
    rcases hx with rfl | hx
    · exact ⟨_, hn, rfl⟩
    · obtain ⟨t, ht, hx⟩ := List.mem_flatMap.1 hx
      obtain ⟨m, hm, rfl⟩ := List.mem_map.1 ht
      have hm := Descent.mem_of_mem_kept _ hm
      exact ih m hm (hP _ hn m hm) hx

/-- What holds of all that is observed of nodes of a kind holds of all facts of outlines. -/
theorem forall_mem_visit {P : Node → Prop} {Q : Facts → Prop}
    (hP : ∀ n, P n → ∀ m ∈ n.children, P m)
    (hobserve : ∀ m f below, P m → (d.observe m).result = .ok (f, below) → Q f) (hn : P n)
    {o : Outline} (h : (d.visit n).result = .ok o) : ∀ f ∈ o.preorder, Q f := by
  have hwalk : (d.walk n).map Traced.result = o.map .ok := Traced.settle_eq_ok.1 h
  intro f hf
  have hmem : Except.ok f ∈ ((d.walk n).map Traced.result).preorder := by
    rw [hwalk, Tree.preorder_map]
    exact List.mem_map_of_mem hf
  rw [Tree.preorder_map] at hmem
  obtain ⟨x, hx, hxf⟩ := List.mem_map.1 hmem
  obtain ⟨m, hm, rfl⟩ := mem_walk d hP hn hx
  rw [Traced.map_result, map_eq_ok] at hxf
  obtain ⟨⟨f, below⟩, hobs, rfl⟩ := hxf
  exact hobserve m f below hm hobs

theorem forall_mem_visitAll {P : Node → Prop} {Q : Facts → Prop}
    (hP : ∀ n, P n → ∀ m ∈ n.children, P m)
    (hobserve : ∀ m f below, P m → (d.observe m).result = .ok (f, below) → Q f) {ns : List Node}
    (hns : ∀ n ∈ ns, P n) {os : List Outline} (h : (d.visitAll ns).result = .ok os) :
    ∀ o ∈ os, ∀ f ∈ o.preorder, Q f := by
  induction ns generalizing os with
  | nil =>
    obtain rfl := Except.ok.inj h
    exact List.forall_mem_nil _
  | cons n ns ih =>
    rw [List.forall_mem_cons] at hns
    simp only [visitAll, Traced.bind_result, bind_eq_ok, Traced.pure_result] at h
    obtain ⟨o, ho, us, hus, h⟩ := h
    obtain rfl := Except.ok.inj h
    exact List.forall_mem_cons.2 ⟨forall_mem_visit hP hobserve hns.1 ho, ih hns.2 hus⟩

theorem isScene_children (n : Node) (hn : n.IsScene) : ∀ m ∈ n.children, Node.IsScene m :=
  fun _ hm => (hn.mem_children hm).1

theorem visit_yields (hd : d.IsTyped) (hn : n.IsScene) :
    Yields (d.visit n).result fun _ => True := by
  refine (Traced.settle_yields (P := fun _ => True) fun x hx => ?_).mono fun _ _ => trivial
  obtain ⟨m, hm, rfl⟩ := mem_walk d isScene_children hn hx
  rw [Traced.map_result]
  exact (observe_yields hd hm).map fun _ _ => trivial

theorem visitAll_yields (hd : d.IsTyped) {ns : List Node} (h : ∀ n ∈ ns, n.IsScene) :
    Yields (d.visitAll ns).result fun _ => True := by
  induction ns with
  | nil => simp [visitAll]
  | cons n ns ih =>
    simp only [visitAll, Traced.bind_result]
    apply (visit_yields hd (h n (.head _))).bind
    intro _ _
    exact (ih fun m hm => h m (.tail _ hm)).bind fun _ _ => by simp

end DesignComponents.Document
